import LibvirtProvider.Builders
import LibvirtProvider.HostEntries

/-!
# A libvirt host

What the provider's calls over an open connection do to a host: its storage
pools, domains, networks and upload streams. This is what is assumed of
libvirt.

* A volume that was created exists from then on, with undefined content until
  an upload to it has finished.
* A domain is persistent, active, or both. `Undefine` on an active domain
  leaves it running and no longer persistent, `Destroy` on a domain that is
  not persistent removes it, and neither name nor UUID belongs to two
  domains.
* A network's host entries change as `Network.update` says.
* A call may fail at any time, for a reason of its own, and then has no
  effect. The reason is never that something was not found: that answer is
  given where it is true.

A handle that a call returns is represented by what it refers to. Freeing one
does nothing here. The calls that build the cloud-init image work on a
scratch file and not on the host; what is read back from it in the end is up
to the image library.
-/

namespace LibvirtProvider

open Interaction

abbrev Bytes := List UInt8

/-! ## The host -/

/-- A storage volume. Without an upload that has finished, its content is
undefined. -/
structure Volume where
  xml : StorageVolume
  content : Option Bytes
  deriving DecidableEq, Repr

/-- A storage pool: the directory of its volumes, and the volumes by name. -/
structure StoragePool where
  target : String
  volumes : String → Option Volume

/-- `libvirt.DomainState`. -/
inductive DomainRunState where
  | nostate
  | running
  | blocked
  | paused
  | shutdown
  | shutoff
  | crashed
  | pmsuspended
  deriving DecidableEq, Repr

/-- A domain. Being persistent (defined) and being active (running) are
independent of each other, and what `Destroy` and `Undefine` do depends on
both. The description is the one it was last defined with. -/
structure Domain where
  uuid : String
  xml : DomainXML
  persistent : Bool
  active : Bool
  state : DomainRunState
  autostart : Bool
  deriving DecidableEq, Repr

/-- An upload stream: the volume it is bound to, by pool and name, and what
was sent. What was sent is in the volume only once the stream is finished; an
upload that breaks off leaves the content undefined. -/
structure Stream where
  target : Option (String × String)
  sent : Bytes

/-- The storage of a host: its pools, and the streams that are open. -/
structure Storage where
  pools : String → Option StoragePool
  streams : ℕ → Option Stream
  nextStream : ℕ

/-- The domains of a host, by name. -/
abbrev Domains := AList fun _ : String => Domain

/-- **A host.** The three parts are changed by different calls, which is what
lets a step of the provider be looked at with the rest of the host set aside.
No call changes `errors`. -/
structure Host where
  storage : Storage
  domains : Domains
  networks : String → Option Network
  /-- How errors of this host reach the code. It belongs to the binding and
  not to libvirt; it is kept here so that every run has one, and the same one
  from beginning to end. -/
  errors : ErrorForm := .value

/-! ## Handles -/

/-- `*libvirt.StoragePool`. -/
structure StoragePoolRef where
  name : String
  deriving DecidableEq, Repr

/-- `*libvirt.StorageVol`. -/
structure StorageVolRef where
  pool : String
  name : String
  deriving DecidableEq, Repr

/-- `*libvirt.Domain`: a name and a UUID. A handle outlives its domain, and
does not lead to another domain that has the name by then. -/
structure DomainRef where
  name : String
  uuid : String
  deriving DecidableEq, Repr

/-- `*libvirt.Network`. -/
structure NetworkRef where
  name : String
  deriving DecidableEq, Repr

/-- `*libvirt.Stream`. -/
structure StreamRef where
  id : ℕ
  deriving DecidableEq, Repr

/-! ## What a call does when it does not fail -/

namespace Storage

variable (s : Storage)

/-- A volume, by pool and name. -/
def volume (pool name : String) : Option Volume :=
  (s.pools pool).bind fun p => p.volumes name

/-- The storage with a volume put in place, or removed. All calls that change
a volume come down to this one function. -/
def setVolume (pool name : String) (v : Option Volume) : Storage :=
  match s.pools pool with
  | none => s
  | some p =>
    { s with
      pools := Function.update s.pools pool
        (some { p with volumes := Function.update p.volumes name v }) }

/-- `LookupStoragePoolByName`. -/
def lookupStoragePoolByName (name : String) : Except ErrorNumber StoragePoolRef :=
  match s.pools name with
  | none => .error .noStoragePool
  | some _ => .ok ⟨name⟩

/-- `LookupStorageVolByName`. -/
def lookupStorageVolByName (pool : StoragePoolRef) (name : String) :
    Except ErrorNumber StorageVolRef :=
  match s.volume pool.name name with
  | none => .error .noStorageVol
  | some _ => .ok ⟨pool.name, name⟩

/-- `StorageVolCreateXML`: refused where there is a volume of the name. -/
def storageVolCreateXML (pool : StoragePoolRef) (xml : StorageVolume) :
    Except ErrorNumber StorageVolRef × Storage :=
  match s.pools pool.name with
  | none => (.error .noStoragePool, s)
  | some p =>
    match p.volumes xml.name with
    | some _ => (.error (.other 90), s)
    | none => (.ok ⟨pool.name, xml.name⟩, s.setVolume pool.name xml.name (some ⟨xml, none⟩))

/-- `StorageVol.GetPath`. -/
def getPath (vol : StorageVolRef) : Except ErrorNumber String :=
  match s.pools vol.pool with
  | none => .error .noStoragePool
  | some p =>
    match p.volumes vol.name with
    | none => .error .noStorageVol
    | some _ => .ok (p.target ++ "/" ++ vol.name)

/-- `StorageVol.Delete`. -/
def deleteVol (vol : StorageVolRef) : Except ErrorNumber Unit × Storage :=
  match s.volume vol.pool vol.name with
  | none => (.error .noStorageVol, s)
  | some _ => (.ok (), s.setVolume vol.pool vol.name none)

/-- `NewStream`. -/
def newStream : Except ErrorNumber StreamRef × Storage :=
  (.ok ⟨s.nextStream⟩,
   { s with
     streams := Function.update s.streams s.nextStream (some ⟨none, []⟩)
     nextStream := s.nextStream + 1 })

/-- `StorageVol.Upload`: the stream is bound to the volume, and the volume's
content is undefined from now on. -/
def upload (vol : StorageVolRef) (stream : StreamRef) : Except ErrorNumber Unit × Storage :=
  match s.volume vol.pool vol.name, s.streams stream.id with
  | some v, some _ =>
    (.ok (),
     { s.setVolume vol.pool vol.name (some { v with content := none }) with
       streams := Function.update s.streams stream.id (some ⟨some (vol.pool, vol.name), []⟩) })
  | none, _ => (.error .noStorageVol, s)
  | _, none => (.error (.other 8), s)

/-- `Stream.SendAll`, on what the callback returns round by round. -/
def sendAll (stream : StreamRef) (chunks : List Bytes) : Except ErrorNumber Unit × Storage :=
  match s.streams stream.id with
  | none => (.error (.other 8), s)
  | some st =>
    (.ok (), { s with
      streams := Function.update s.streams stream.id
        (some { st with sent := st.sent ++ chunks.flatten }) })

/-- `Stream.Finish`: the volume's content is what was sent. -/
def finish (stream : StreamRef) : Except ErrorNumber Unit × Storage :=
  match s.streams stream.id with
  | none => (.error (.other 8), s)
  | some st =>
    let closed := { s with streams := Function.update s.streams stream.id none }
    match st.target with
    | none => (.ok (), closed)
    | some (pool, name) =>
      match s.volume pool name with
      | none => (.error .noStorageVol, s)
      | some v => (.ok (), closed.setVolume pool name (some { v with content := some st.sent }))

/-- `Stream.Abort`. -/
def abort (stream : StreamRef) : Except ErrorNumber Unit × Storage :=
  (.ok (), { s with streams := Function.update s.streams stream.id none })

variable {s} in
theorem volume_eq_some {pool name : String} {v : Volume} :
    s.volume pool name = some v ↔ ∃ p, s.pools pool = some p ∧ p.volumes name = some v :=
  Option.bind_eq_some_iff

/-- The directory of each pool. -/
def target (pool : String) : Option String := (s.pools pool).map StoragePool.target

@[simp] theorem target_setVolume (pool name pool' : String) (v : Option Volume) :
    (s.setVolume pool name v).target pool' = s.target pool' := by
  unfold setVolume target
  split
  · rfl
  · rename_i p hp
    by_cases h : pool' = pool
    · subst h
      simp [hp]
    · simp [h]

theorem volume_setVolume_self {pool name : String} (v : Option Volume)
    (h : (s.target pool).isSome) : (s.setVolume pool name v).volume pool name = v := by
  obtain ⟨p, hp⟩ := Option.isSome_iff_exists.mp (by simpa [target] using h)
  simp [setVolume, volume, hp]

theorem volume_setVolume_none (pool name : String) :
    (s.setVolume pool name none).volume pool name = none := by
  unfold setVolume
  split
  · rename_i hp
    simp [volume, hp]
  · simp [volume]

variable {s} in
theorem pools_setVolume_congr {s' : Storage} {pool name : String} {v : Option Volume}
    (h : s'.pools = s.pools) :
    (s'.setVolume pool name v).pools = (s.setVolume pool name v).pools := by
  unfold setVolume
  rw [h]
  split
  · exact h
  · rfl

theorem volume_setVolume_of_ne {pool name pool' name' : String} (v : Option Volume)
    (h : ¬ (pool' = pool ∧ name' = name)) :
    (s.setVolume pool name v).volume pool' name' = s.volume pool' name' := by
  unfold setVolume
  split
  · rfl
  · rename_i p hp
    by_cases hpool : pool' = pool
    · subst hpool
      have hname : name' ≠ name := fun hname => h ⟨rfl, hname⟩
      simp [volume, hp, hname]
    · simp [volume, hpool]

variable {s} in
theorem isSome_target_of_volume {pool name : String} {v : Volume}
    (h : s.volume pool name = some v) : (s.target pool).isSome := by
  obtain ⟨p, hp, -⟩ := volume_eq_some.mp h
  simp [target, hp]

/-- The path of a volume is one, where the volume is there. -/
theorem getPath_eq_ok {vol : StorageVolRef} {path : String} :
    s.getPath vol = .ok path ↔
      ∃ dir v, s.target vol.pool = some dir ∧ s.volume vol.pool vol.name = some v
        ∧ path = dir ++ "/" ++ vol.name := by
  unfold getPath target volume
  cases s.pools vol.pool with
  | none => simp
  | some p =>
    cases hv : p.volumes vol.name with
    | none => simp [hv]
    | some v => simp [hv, eq_comm]

theorem getPath_ne_empty {vol : StorageVolRef} {path : String} (h : s.getPath vol = .ok path) :
    path ≠ "" := by
  obtain ⟨dir, v, -, -, rfl⟩ := s.getPath_eq_ok.mp h
  simp

/-- An upload to a volume that is there begins. -/
theorem upload_eq {pool name : String} {stream : StreamRef} {v : Volume} {st : Stream}
    (hv : s.volume pool name = some v) (hst : s.streams stream.id = some st) :
    s.upload ⟨pool, name⟩ stream = (.ok (),
      { s.setVolume pool name (some { v with content := none }) with
        streams := Function.update s.streams stream.id (some ⟨some (pool, name), []⟩) }) := by
  simp only [upload, hv, hst]

/-- What is sent on an open stream is kept. -/
theorem sendAll_eq {stream : StreamRef} {st : Stream} (hst : s.streams stream.id = some st)
    (chunks : List Bytes) :
    s.sendAll stream chunks = (.ok (), { s with
      streams := Function.update s.streams stream.id
        (some { st with sent := st.sent ++ chunks.flatten }) }) := by
  simp only [sendAll, hst]

/-- The end of an upload to a volume that is there. -/
theorem finish_eq {pool name : String} {stream : StreamRef} {v : Volume} {sent : Bytes}
    (hst : s.streams stream.id = some ⟨some (pool, name), sent⟩)
    (hv : s.volume pool name = some v) :
    s.finish stream = (.ok (),
      ({ s with streams := Function.update s.streams stream.id none }).setVolume pool name
        (some { v with content := some sent })) := by
  simp only [finish, hst, hv]

end Storage

namespace Domains

variable (ds : Domains)

/-- The domain a handle refers to. -/
def get (dom : DomainRef) : Option Domain :=
  match ds.lookup dom.name with
  | none => none
  | some d => if d.uuid = dom.uuid then some d else none

/-- `LookupDomainByName`. -/
def lookupDomainByName (name : String) : Except ErrorNumber DomainRef :=
  match ds.lookup name with
  | none => .error .noDomain
  | some d => .ok ⟨name, d.uuid⟩

/-- `DomainDefineXML`: a new domain, or a new description for the one that has
both the name and the UUID. Where only one of the two agrees libvirt refuses.
`fresh` is the UUID libvirt makes up where the description has none. -/
def domainDefineXML (xml : DomainXML) (fresh : String) : Except ErrorNumber DomainRef × Domains :=
  let uuid := if xml.uuid = "" then fresh else xml.uuid
  if ds.entries.any fun e => e.1 != xml.name && e.2.uuid == uuid then
    (.error (.other 9), ds)
  else
    match ds.lookup xml.name with
    | none => (.ok ⟨xml.name, uuid⟩,
        ds.insert xml.name ⟨uuid, xml, true, false, .shutoff, false⟩)
    | some d =>
      if d.uuid = uuid then
        (.ok ⟨xml.name, uuid⟩, ds.insert xml.name { d with xml := xml, persistent := true })
      else (.error (.other 9), ds)

/-- `Domain.SetAutostart`. -/
def setAutostart (dom : DomainRef) (autostart : Bool) : Except ErrorNumber Unit × Domains :=
  match ds.get dom with
  | none => (.error .noDomain, ds)
  | some d =>
    if d.persistent then (.ok (), ds.insert dom.name { d with autostart := autostart })
    else (.error (.other 55), ds)

/-- `Domain.Create`: start the domain. -/
def create (dom : DomainRef) : Except ErrorNumber Unit × Domains :=
  match ds.get dom with
  | none => (.error .noDomain, ds)
  | some d =>
    if d.active then (.error (.other 55), ds)
    else (.ok (), ds.insert dom.name { d with active := true, state := .running })

/-- `Domain.IsActive`. -/
def isActive (dom : DomainRef) : Except ErrorNumber Bool :=
  match ds.get dom with
  | none => .error .noDomain
  | some d => .ok d.active

/-- `Domain.Destroy`: a persistent domain is shut off, another one is gone. -/
def destroy (dom : DomainRef) : Except ErrorNumber Unit × Domains :=
  match ds.get dom with
  | none => (.error .noDomain, ds)
  | some d =>
    if d.active then
      if d.persistent then
        (.ok (), ds.insert dom.name { d with active := false, state := .shutoff })
      else (.ok (), ds.erase dom.name)
    else (.error (.other 55), ds)

/-- `Domain.Undefine`: an active domain goes on running, another one is gone.
So undefining is not enough to get rid of a domain, unless it was stopped
before. -/
def undefine (dom : DomainRef) : Except ErrorNumber Unit × Domains :=
  match ds.get dom with
  | none => (.error .noDomain, ds)
  | some d =>
    if d.persistent then
      if d.active then
        (.ok (), ds.insert dom.name { d with persistent := false, autostart := false })
      else (.ok (), ds.erase dom.name)
    else (.error (.other 55), ds)

/-- `Domain.GetState`, without the reason. -/
def getState (dom : DomainRef) : Except ErrorNumber DomainRunState :=
  match ds.get dom with
  | none => .error .noDomain
  | some d => .ok d.state

variable {ds}

theorem get_eq_some {dom : DomainRef} {d : Domain} :
    ds.get dom = some d ↔ ds.lookup dom.name = some d ∧ d.uuid = dom.uuid := by
  unfold get
  cases ds.lookup dom.name with
  | none => simp
  | some d' =>
    dsimp only
    split
    · rename_i h
      constructor
      · rintro ⟨⟩
        exact ⟨rfl, h⟩
      · exact fun h' => h'.1
    · rename_i h
      refine iff_of_false (fun h' => nomatch h') fun h' => h ?_
      cases h'.1
      exact h'.2

/-! Each of the calls is refused and changes nothing, or finds the domain in
the state it needs. -/

theorem setAutostart_cases (dom : DomainRef) (autostart : Bool) :
    (∃ e, ds.setAutostart dom autostart = (.error e, ds))
    ∨ ∃ d, ds.get dom = some d ∧ d.persistent = true
      ∧ ds.setAutostart dom autostart
        = (.ok (), ds.insert dom.name { d with autostart := autostart }) := by
  unfold setAutostart
  cases ds.get dom with
  | none => exact Or.inl ⟨_, rfl⟩
  | some d =>
    cases hp : d.persistent with
    | false => exact Or.inl ⟨.other 55, by simp [hp]⟩
    | true => exact Or.inr ⟨d, rfl, hp, by simp [hp]⟩

theorem create_cases (dom : DomainRef) :
    (∃ e, ds.create dom = (.error e, ds))
    ∨ ∃ d, ds.get dom = some d ∧ d.active = false
      ∧ ds.create dom
        = (.ok (), ds.insert dom.name { d with active := true, state := .running }) := by
  unfold create
  cases ds.get dom with
  | none => exact Or.inl ⟨_, rfl⟩
  | some d =>
    cases ha : d.active with
    | true => exact Or.inl ⟨.other 55, by simp [ha]⟩
    | false => exact Or.inr ⟨d, rfl, ha, by simp [ha]⟩

theorem destroy_cases (dom : DomainRef) :
    (∃ e, ds.destroy dom = (.error e, ds))
    ∨ ∃ d, ds.get dom = some d ∧ d.active = true
      ∧ ds.destroy dom = (.ok (), if d.persistent then
          ds.insert dom.name { d with active := false, state := .shutoff }
        else ds.erase dom.name) := by
  unfold destroy
  cases ds.get dom with
  | none => exact Or.inl ⟨_, rfl⟩
  | some d =>
    cases ha : d.active with
    | false => exact Or.inl ⟨.other 55, by simp [ha]⟩
    | true =>
      refine Or.inr ⟨d, rfl, ha, ?_⟩
      cases hp : d.persistent <;> simp [ha, hp]

theorem undefine_cases (dom : DomainRef) :
    (∃ e, ds.undefine dom = (.error e, ds))
    ∨ ∃ d, ds.get dom = some d ∧ d.persistent = true
      ∧ ds.undefine dom = (.ok (), if d.active then
          ds.insert dom.name { d with persistent := false, autostart := false }
        else ds.erase dom.name) := by
  unfold undefine
  cases ds.get dom with
  | none => exact Or.inl ⟨_, rfl⟩
  | some d =>
    cases hp : d.persistent with
    | false => exact Or.inl ⟨.other 55, by simp [hp]⟩
    | true =>
      refine Or.inr ⟨d, rfl, hp, ?_⟩
      cases ha : d.active <;> simp [hp, ha]

end Domains

namespace Host

variable {α : Type} (s : Host)

/-- A call on the storage of the host. -/
def onStorage (m : Except ErrorNumber α × Storage) : Except ErrorNumber α × Host :=
  (m.1, { s with storage := m.2 })

/-- A call on the domains of the host. -/
def onDomains (m : Except ErrorNumber α × Domains) : Except ErrorNumber α × Host :=
  (m.1, { s with domains := m.2 })

/-- `LookupNetworkByName`. -/
def lookupNetworkByName (name : String) : Except ErrorNumber NetworkRef :=
  match s.networks name with
  | none => .error .noNetwork
  | some _ => .ok ⟨name⟩

end Host

/-! ## The calls -/

/-- `cloudInitMetaData`. -/
structure CloudInitMetaData where
  instanceID : String
  localHostname : String
  deriving DecidableEq, Repr

/-- What is written to a file of the image: bytes, or a document that is
marshalled. -/
inductive ISOFileData where
  | bytes (data : Bytes)
  | metaData (data : CloudInitMetaData)
  deriving DecidableEq, Repr

/-- The calls that build the cloud-init image in a scratch directory. -/
inductive ISOOp where
  | mkdirTemp (pattern : String)
  | create (path : String) (size : ℕ)
  | createFilesystem (logicalBlocksize : ℕ)
  | openFile (name : String)
  | write (name : String) (data : ISOFileData)
  | closeFile (name : String)
  | finalize (volumeIdentifier : String) (rockRidge : Bool)
  | closeFilesystem
  | closeDisk
  | openImage (path : String)
  | copy (path : String)

/-- What they answer. -/
def ISOOp.Result : ISOOp → Type
  | .mkdirTemp _ => String
  | .copy _ => Bytes
  | _ => Unit

/-- **The calls made while a connection is open.** Flags and lengths are kept
as they are passed, so that they can be compared with the source, also where
the host does not look at them. -/
inductive LibvirtOp where
  | lookupStoragePoolByName (name : String)
  | lookupStorageVolByName (pool : StoragePoolRef) (name : String)
  | storageVolCreateXML (pool : StoragePoolRef) (xml : StorageVolume) (flags : ℕ)
  | getPath (vol : StorageVolRef)
  | deleteVol (vol : StorageVolRef) (flags : ℕ)
  | newStream (flags : ℕ)
  | upload (vol : StorageVolRef) (stream : StreamRef) (offset length flags : ℕ)
  | sendAll (stream : StreamRef) (chunks : List Bytes)
  | finish (stream : StreamRef)
  | abort (stream : StreamRef)
  | lookupDomainByName (name : String)
  | domainDefineXML (xml : DomainXML)
  | setAutostart (dom : DomainRef) (autostart : Bool)
  | create (dom : DomainRef)
  | isActive (dom : DomainRef)
  | destroy (dom : DomainRef)
  | undefine (dom : DomainRef)
  | getState (dom : DomainRef)
  | lookupNetworkByName (name : String)
  | network (net : NetworkRef) (o : NetworkOp)
  | iso (o : ISOOp)

/-- The signature of an open connection. -/
def LibvirtSig : Signature where
  Op := LibvirtOp
  Ans
    | .lookupStoragePoolByName _ => Except GoError StoragePoolRef
    | .lookupStorageVolByName _ _ => Except GoError StorageVolRef
    | .storageVolCreateXML _ _ _ => Except GoError StorageVolRef
    | .getPath _ => Except GoError String
    | .deleteVol _ _ => Except GoError Unit
    | .newStream _ => Except GoError StreamRef
    | .upload _ _ _ _ _ => Except GoError Unit
    | .sendAll _ _ => Except GoError Unit
    | .finish _ => Except GoError Unit
    | .abort _ => Except GoError Unit
    | .lookupDomainByName _ => Except GoError DomainRef
    | .domainDefineXML _ => Except GoError DomainRef
    | .setAutostart _ _ => Except GoError Unit
    | .create _ => Except GoError Unit
    | .isActive _ => Except GoError Bool
    | .destroy _ => Except GoError Unit
    | .undefine _ => Except GoError Unit
    | .getState _ => Except GoError DomainRunState
    | .lookupNetworkByName _ => Except GoError NetworkRef
    | .network _ o => NetworkSig.Ans o
    | .iso o => Except GoError o.Result

/-- What the environment decides about a call: whether it fails, the UUID made
up for a domain, the leases of a network, the scratch directory and the image
read back. Everything else a call answers is determined by the host. -/
structure LibvirtChoice where
  fault : Option ℕ := none
  uuid : String := ""
  leases : List NetworkDHCPLease := []
  dir : String := "/tmp/iso-0"
  image : Bytes := []

namespace LibvirtChoice

variable {α : Type}

/-- A call fails, with no effect, or does what it does. Either way it is the
binding that makes an error of what libvirt reported. -/
def answer (c : LibvirtChoice) (s : Host) (r : Except ErrorNumber α × Host) :
    Option (Except GoError α × Host) :=
  match c.fault with
  | some code => some (.error (s.errors.error (.other code)), s)
  | none => some (r.1.mapError s.errors.error, r.2)

end LibvirtChoice

/-- The result of a call on the scratch image that does not fail. -/
def ISOOp.result (c : LibvirtChoice) : (o : ISOOp) → o.Result
  | .mkdirTemp _ => c.dir
  | .create _ _ => ()
  | .createFilesystem _ => ()
  | .openFile _ => ()
  | .write _ _ => ()
  | .closeFile _ => ()
  | .finalize _ _ => ()
  | .closeFilesystem => ()
  | .closeDisk => ()
  | .openImage _ => ()
  | .copy _ => c.image

/-- What a call on a network that is not there answers. The handle was looked
up before, so this takes a network that went away in between. -/
def networkMissing (form : ErrorForm) : (o : NetworkOp) → Option (NetworkSig.Ans o)
  | .getXMLDesc _ => some (.error (form.error .noNetwork))
  | .update _ _ _ _ => some (.error (form.error .noNetwork))
  | .getDHCPLeases => some (.error (form.error .noNetwork))
  | .hang => none

/-- **The calls on a host.** One equation for each call: it fails, or it is
the function above of the part of the host that it concerns. -/
def libvirtStep (s : Host) :
    (o : LibvirtSig.Op) → LibvirtChoice → Option (LibvirtSig.Ans o × Host)
  | .lookupStoragePoolByName name, c => c.answer s (s.storage.lookupStoragePoolByName name, s)
  | .lookupStorageVolByName pool name, c =>
    c.answer s (s.storage.lookupStorageVolByName pool name, s)
  | .storageVolCreateXML pool xml _, c =>
    c.answer s (s.onStorage (s.storage.storageVolCreateXML pool xml))
  | .getPath vol, c => c.answer s (s.storage.getPath vol, s)
  | .deleteVol vol _, c => c.answer s (s.onStorage (s.storage.deleteVol vol))
  | .newStream _, c => c.answer s (s.onStorage s.storage.newStream)
  | .upload vol stream _ _ _, c => c.answer s (s.onStorage (s.storage.upload vol stream))
  | .sendAll stream chunks, c => c.answer s (s.onStorage (s.storage.sendAll stream chunks))
  | .finish stream, c => c.answer s (s.onStorage (s.storage.finish stream))
  | .abort stream, c => c.answer s (s.onStorage (s.storage.abort stream))
  | .lookupDomainByName name, c => c.answer s (s.domains.lookupDomainByName name, s)
  | .domainDefineXML xml, c => c.answer s (s.onDomains (s.domains.domainDefineXML xml c.uuid))
  | .setAutostart dom autostart, c =>
    c.answer s (s.onDomains (s.domains.setAutostart dom autostart))
  | .create dom, c => c.answer s (s.onDomains (s.domains.create dom))
  | .isActive dom, c => c.answer s (s.domains.isActive dom, s)
  | .destroy dom, c => c.answer s (s.onDomains (s.domains.destroy dom))
  | .undefine dom, c => c.answer s (s.onDomains (s.domains.undefine dom))
  | .getState dom, c => c.answer s (s.domains.getState dom, s)
  | .lookupNetworkByName name, c => c.answer s (s.lookupNetworkByName name, s)
  | .network net o, c =>
    match s.networks net.name with
    | none => (networkMissing s.errors o).map fun r => (r, s)
    | some network =>
      (networkStep network o ⟨c.fault, c.leases⟩).map fun r =>
        (r.1, { s with networks := Function.update s.networks net.name (some r.2) })
  | .iso o, c =>
    match c.fault with
    | some code => some (.error (.text s!"image error {code}"), s)
    | none => some (.ok (o.result c), s)

/-- What the calls mean, over every choice of the environment. -/
def libvirtSem : Sem LibvirtSig Host := Prog.semOf libvirtStep

/-! ## What a call leaves alone -/

section Answers

variable {α : Type} {s s' : Host} {m : Except ErrorNumber α × Host} {r : Except GoError α}

/-- The outcomes of a call: it fails and nothing happens, or it does what it
does. -/
def Answers (s : Host) (m : Except ErrorNumber α × Host) (r : Except GoError α) (s' : Host) :
    Prop :=
  (∃ code, r = .error (s.errors.error (.other code))) ∧ s' = s
  ∨ r = m.1.mapError s.errors.error ∧ s' = m.2

theorem LibvirtChoice.exists_answer :
    (∃ c : LibvirtChoice, c.answer s m = some (r, s')) ↔ Answers s m r s' := by
  constructor
  · rintro ⟨c, hc⟩
    unfold LibvirtChoice.answer at hc
    split at hc
    · rename_i code _
      cases hc
      exact Or.inl ⟨⟨code, rfl⟩, rfl⟩
    · cases hc
      exact Or.inr ⟨rfl, rfl⟩
  · rintro (⟨⟨code, rfl⟩, rfl⟩ | ⟨rfl, rfl⟩)
    · exact ⟨{ fault := some code }, rfl⟩
    · exact ⟨{}, rfl⟩

/-- A call that can only succeed or fail for a reason of its own. -/
theorem Answers.of_eq {a : α} {t : Host} (h : Answers s m r s') (hm : m = (.ok a, t)) :
    (∃ code, r = .error (s.errors.error (.other code))) ∧ s' = s ∨ r = .ok a ∧ s' = t := by
  subst hm
  exact h

/-- What both outcomes of a call keep, the call keeps. -/
theorem Answers.keeps {P : Host → Prop} (h : Answers s m r s') (hs : P s) (hm : P m.2) :
    P s' := by
  rcases h with ⟨-, rfl⟩ | ⟨-, rfl⟩
  · exact hs
  · exact hm

end Answers

namespace LibvirtOp

/-- The calls that change domains. -/
def touchesDomains : LibvirtOp → Bool
  | .domainDefineXML _ | .setAutostart _ _ | .create _ | .destroy _ | .undefine _ => true
  | _ => false

/-- The calls that change volumes or streams. -/
def touchesStorage : LibvirtOp → Bool
  | .storageVolCreateXML _ _ _ | .deleteVol _ _ | .newStream _ | .upload _ _ _ _ _
  | .sendAll _ _ | .finish _ | .abort _ => true
  | _ => false

/-- The calls on a network. -/
def touchesNetworks : LibvirtOp → Bool
  | .network _ _ => true
  | _ => false

/-- The calls that only ask, or do not concern the host. -/
def isQuery (o : LibvirtOp) : Bool :=
  !o.touchesDomains && !o.touchesStorage && !o.touchesNetworks

theorem isQuery_iff {o : LibvirtOp} :
    o.isQuery = true ↔
      o.touchesDomains = false ∧ o.touchesStorage = false ∧ o.touchesNetworks = false := by
  simp [isQuery, and_assoc]

/-- The queries a volume is made with: those about pools and volumes, and the
calls on the scratch image. -/
def asksStorage : LibvirtOp → Bool
  | .lookupStoragePoolByName _ | .lookupStorageVolByName _ _ | .getPath _ | .iso _ => true
  | _ => false

theorem isQuery_of_asksStorage {o : LibvirtOp} (h : o.asksStorage = true) : o.isQuery = true := by
  cases o <;> first | rfl | cases h

/-- The calls an upload is made of. -/
def streams : LibvirtOp → Bool
  | .newStream _ | .upload _ _ _ _ _ | .sendAll _ _ | .finish _ | .abort _ => true
  | _ => false

/-- The calls that leave a volume alone. -/
def leavesVolume (pool name : String) : LibvirtOp → Bool
  | .storageVolCreateXML p xml _ => !(p.name == pool && xml.name == name)
  | .deleteVol vol _ => !(vol.pool == pool && vol.name == name)
  | .upload vol _ _ _ _ => !(vol.pool == pool && vol.name == name)
  | .finish _ => false
  | _ => true

theorem leavesVolume_of_touchesStorage {pool name : String} (o : LibvirtOp)
    (h : o.touchesStorage = false) : o.leavesVolume pool name = true := by
  cases o <;> first | rfl | cases h

theorem leavesVolume_of_isQuery {pool name : String} (o : LibvirtOp) (h : o.isQuery = true) :
    o.leavesVolume pool name = true :=
  o.leavesVolume_of_touchesStorage (isQuery_iff.mp h).2.1

end LibvirtOp

/-- What a call makes of a volume. There are four ways in all, and each of
them names the volume it is about; that no call touches two volumes follows. -/
inductive VolumeEdit (s : Storage) : LibvirtOp → String → String → Option Volume → Prop where
  | create {p : StoragePoolRef} {xml : StorageVolume} {flags : ℕ}
      (hnone : s.volume p.name xml.name = none) :
      VolumeEdit s (.storageVolCreateXML p xml flags) p.name xml.name (some ⟨xml, none⟩)
  | delete {vol : StorageVolRef} {flags : ℕ} :
      VolumeEdit s (.deleteVol vol flags) vol.pool vol.name none
  | upload {vol : StorageVolRef} {stream : StreamRef} {offset length flags : ℕ} {v : Volume}
      (hv : s.volume vol.pool vol.name = some v) :
      VolumeEdit s (.upload vol stream offset length flags) vol.pool vol.name
        (some { v with content := none })
  | finish {stream : StreamRef} {pool name : String} {v : Volume} {sent : Bytes}
      (hv : s.volume pool name = some v) :
      VolumeEdit s (.finish stream) pool name (some { v with content := some sent })

section Frame

variable {s s' : Host} {o : LibvirtSig.Op} {r : LibvirtSig.Ans o}

theorem libvirtSem_iso {o : ISOOp} {r : Except GoError o.Result}
    (h : libvirtSem s (.iso o) r s') : s' = s := by
  obtain ⟨c, hc⟩ := h
  cases hf : c.fault <;> simp only [libvirtStep, hf] at hc <;> cases hc <;> rfl

/-- A call on a network is one of `networkSem`, where the network is there. -/
theorem libvirtSem_network {net : NetworkRef} {o : NetworkOp} {r : NetworkSig.Ans o}
    (h : libvirtSem s (.network net o) r s') :
    s' = s ∧ s.networks net.name = none
    ∨ ∃ network network', s.networks net.name = some network ∧ networkSem network o r network'
      ∧ s' = { s with networks := Function.update s.networks net.name (some network') } := by
  obtain ⟨c, hc⟩ := h
  cases hn : s.networks net.name with
  | none =>
    simp only [libvirtStep, hn] at hc
    obtain ⟨_, -, hr⟩ := Option.map_eq_some_iff.mp hc
    cases hr
    exact Or.inl ⟨rfl, rfl⟩
  | some network =>
    simp only [libvirtStep, hn] at hc
    obtain ⟨x, hx, hr⟩ := Option.map_eq_some_iff.mp hc
    cases hr
    exact Or.inr ⟨network, x.2, rfl, ⟨_, hx⟩, rfl⟩

/-- **A call changes the domains only if it is one that does.** The kinds of
calls are decided by computation, so that a program is checked for what it
leaves alone by looking at its calls. -/
theorem libvirtSem_domains (h : libvirtSem s o r s') (ho : o.touchesDomains = false) :
    s'.domains = s.domains := by
  cases o with
  | domainDefineXML | setAutostart | create | destroy | undefine => cases ho
  | network net o =>
    rcases libvirtSem_network h with ⟨rfl, -⟩ | ⟨_, _, -, -, rfl⟩ <;> rfl
  | iso o => rw [libvirtSem_iso h]
  | _ =>
    exact (LibvirtChoice.exists_answer.mp h).keeps (P := fun t => t.domains = s.domains) rfl rfl

/-- **A call changes the storage only if it is one that does.** -/
theorem libvirtSem_storage (h : libvirtSem s o r s') (ho : o.touchesStorage = false) :
    s'.storage = s.storage := by
  cases o with
  | storageVolCreateXML | deleteVol | newStream | upload | sendAll | finish | abort => cases ho
  | network net o =>
    rcases libvirtSem_network h with ⟨rfl, -⟩ | ⟨_, _, -, -, rfl⟩ <;> rfl
  | iso o => rw [libvirtSem_iso h]
  | domainDefineXML xml =>
    obtain ⟨c, hc⟩ := h
    exact (LibvirtChoice.exists_answer.mp ⟨c, hc⟩).keeps (P := fun t => t.storage = s.storage)
      rfl rfl
  | _ =>
    exact (LibvirtChoice.exists_answer.mp h).keeps (P := fun t => t.storage = s.storage) rfl rfl

/-- **A call changes the networks only if it is one that does.** -/
theorem libvirtSem_networks (h : libvirtSem s o r s') (ho : o.touchesNetworks = false) :
    s'.networks = s.networks := by
  cases o with
  | network => cases ho
  | iso o => rw [libvirtSem_iso h]
  | domainDefineXML xml =>
    obtain ⟨c, hc⟩ := h
    exact (LibvirtChoice.exists_answer.mp ⟨c, hc⟩).keeps (P := fun t => t.networks = s.networks)
      rfl rfl
  | _ =>
    exact (LibvirtChoice.exists_answer.mp h).keeps (P := fun t => t.networks = s.networks)
      rfl rfl

/-- No call changes the form of the errors. -/
theorem libvirtSem_errors (h : libvirtSem s o r s') : s'.errors = s.errors := by
  cases o with
  | network net o =>
    rcases libvirtSem_network h with ⟨rfl, -⟩ | ⟨_, _, -, -, rfl⟩ <;> rfl
  | iso o => rw [libvirtSem_iso h]
  | domainDefineXML xml =>
    obtain ⟨c, hc⟩ := h
    exact (LibvirtChoice.exists_answer.mp ⟨c, hc⟩).keeps (P := fun t => t.errors = s.errors)
      rfl rfl
  | _ =>
    exact (LibvirtChoice.exists_answer.mp h).keeps (P := fun t => t.errors = s.errors) rfl rfl

theorem exec_errors {α : Type} {p : Prog LibvirtSig α} {tr : List (Event LibvirtSig)} {a : α}
    (h : Prog.Exec libvirtSem p s tr s' a) : s'.errors = s.errors :=
  h.keeps Host.errors fun _ _ _ _ => libvirtSem_errors

theorem libvirtSem_query (h : libvirtSem s o r s') (ho : o.isQuery = true) : s' = s := by
  obtain ⟨hd, hs, hn⟩ := LibvirtOp.isQuery_iff.mp ho
  replace hd := libvirtSem_domains h hd
  replace hs := libvirtSem_storage h hs
  replace hn := libvirtSem_networks h hn
  have he := libvirtSem_errors h
  obtain ⟨_, _, _, _⟩ := s
  obtain ⟨_, _, _, _⟩ := s'
  cases hd
  cases hs
  cases hn
  cases he
  rfl

/-- **A call changes at most one volume**, as it says. All that is known of
volumes across a call is derived from this. -/
theorem libvirtSem_pools (h : libvirtSem s o r s') :
    s'.storage.pools = s.storage.pools
    ∨ ∃ pool name v, VolumeEdit s.storage o pool name v
      ∧ s'.storage.pools = (s.storage.setVolume pool name v).pools := by
  cases hstorage : o.touchesStorage with
  | false => exact Or.inl (congrArg Storage.pools (libvirtSem_storage h hstorage))
  | true =>
    cases o with
    | storageVolCreateXML p xml flags =>
      rcases LibvirtChoice.exists_answer.mp h with ⟨-, rfl⟩ | ⟨-, rfl⟩
      · exact Or.inl rfl
      simp only [Host.onStorage, Storage.storageVolCreateXML]
      split
      · exact Or.inl rfl
      · rename_i pool hpool
        split
        · exact Or.inl rfl
        · rename_i hnone
          exact Or.inr ⟨_, _, _, .create (by simp [Storage.volume, hpool, hnone]), rfl⟩
    | deleteVol vol flags =>
      rcases LibvirtChoice.exists_answer.mp h with ⟨-, rfl⟩ | ⟨-, rfl⟩
      · exact Or.inl rfl
      simp only [Host.onStorage, Storage.deleteVol]
      split
      · exact Or.inl rfl
      · exact Or.inr ⟨_, _, _, .delete, rfl⟩
    | upload vol stream offset length flags =>
      rcases LibvirtChoice.exists_answer.mp h with ⟨-, rfl⟩ | ⟨-, rfl⟩
      · exact Or.inl rfl
      simp only [Host.onStorage, Storage.upload]
      split
      · rename_i hv _
        exact Or.inr ⟨_, _, _, .upload hv, rfl⟩
      · exact Or.inl rfl
      · exact Or.inl rfl
    | sendAll stream chunks =>
      rcases LibvirtChoice.exists_answer.mp h with ⟨-, rfl⟩ | ⟨-, rfl⟩
      · exact Or.inl rfl
      simp only [Host.onStorage, Storage.sendAll]
      split <;> exact Or.inl rfl
    | finish stream =>
      rcases LibvirtChoice.exists_answer.mp h with ⟨-, rfl⟩ | ⟨-, rfl⟩
      · exact Or.inl rfl
      simp only [Host.onStorage, Storage.finish]
      split
      · exact Or.inl rfl
      split
      · exact Or.inl rfl
      split
      · exact Or.inl rfl
      · rename_i hv
        exact Or.inr ⟨_, _, _, .finish hv, Storage.pools_setVolume_congr rfl⟩
    | newStream | abort =>
      rcases LibvirtChoice.exists_answer.mp h with ⟨-, rfl⟩ | ⟨-, rfl⟩ <;> exact Or.inl rfl
    | _ => cases hstorage

/-- **Pools keep their directory**, whatever is called, so that the path of a
volume depends on nothing but its being there. -/
theorem libvirtSem_target (h : libvirtSem s o r s') (pool : String) :
    s'.storage.target pool = s.storage.target pool := by
  rcases libvirtSem_pools h with hpools | ⟨p, n, v, -, hpools⟩
  · rw [Storage.target, hpools, Storage.target]
  · rw [Storage.target, hpools]
    exact s.storage.target_setVolume p n pool v

/-- **A call changes a volume only if it is one that does.** -/
theorem libvirtSem_volume {pool name : String} (h : libvirtSem s o r s')
    (ho : o.leavesVolume pool name = true) :
    s'.storage.volume pool name = s.storage.volume pool name := by
  rcases libvirtSem_pools h with hpools | ⟨p, n, v, hedit, hpools⟩
  · rw [Storage.volume, hpools, Storage.volume]
  · have hne : ¬ (pool = p ∧ name = n) := by
      rintro ⟨rfl, rfl⟩
      cases hedit <;> simp [LibvirtOp.leavesVolume] at ho
    rw [Storage.volume, hpools]
    exact s.storage.volume_setVolume_of_ne v hne

/-- **A volume comes and goes only by creating and by deleting it.** -/
theorem libvirtSem_volume_isSome {pool : String} (h : libvirtSem s o r s')
    (hcreate : ∀ p xml flags, o = .storageVolCreateXML p xml flags → p.name ≠ pool)
    (hdelete : ∀ vol flags, o = .deleteVol vol flags → vol.pool ≠ pool) (name : String) :
    (s'.storage.volume pool name).isSome = (s.storage.volume pool name).isSome := by
  rcases libvirtSem_pools h with hpools | ⟨p, n, v, hedit, hpools⟩
  · rw [Storage.volume, hpools, Storage.volume]
  · have hvolume : s'.storage.volume pool name
        = (s.storage.setVolume p n v).volume pool name := by
      rw [Storage.volume, hpools, Storage.volume]
    rw [hvolume]
    by_cases heq : pool = p ∧ name = n
    · obtain ⟨rfl, rfl⟩ := heq
      cases hedit with
      | create => exact absurd rfl (hcreate _ _ _ rfl)
      | delete => exact absurd rfl (hdelete _ _ rfl)
      | upload hv =>
        rw [s.storage.volume_setVolume_self _ (Storage.isSome_target_of_volume hv), hv]
        rfl
      | finish hv =>
        rw [s.storage.volume_setVolume_self _ (Storage.isSome_target_of_volume hv), hv]
        rfl
    · rw [s.storage.volume_setVolume_of_ne v heq]

/-- **A path stays**, unless a volume is deleted. -/
theorem libvirtSem_getPath {vol : StorageVolRef} {path : String} (h : libvirtSem s o r s')
    (ho : ∀ vol' flags, o ≠ .deleteVol vol' flags) (hpath : s.storage.getPath vol = .ok path) :
    s'.storage.getPath vol = .ok path := by
  obtain ⟨dir, v, hdir, hv, rfl⟩ := s.storage.getPath_eq_ok.mp hpath
  have hvolume : ∃ v', s'.storage.volume vol.pool vol.name = some v' := by
    rcases libvirtSem_pools h with hpools | ⟨p, n, v', hedit, hpools⟩
    · exact ⟨v, by rw [Storage.volume, hpools]; exact hv⟩
    rw [Storage.volume, hpools]
    change ∃ x, (s.storage.setVolume p n v').volume vol.pool vol.name = some x
    by_cases heq : vol.pool = p ∧ vol.name = n
    · have htarget := Storage.isSome_target_of_volume hv
      rw [heq.1, heq.2] at hv ⊢
      rw [heq.1] at htarget
      rw [s.storage.volume_setVolume_self _ htarget]
      cases hedit with
      | create hnone => cases hnone.symm.trans hv
      | delete => exact absurd rfl (ho _ _)
      | upload => exact ⟨_, rfl⟩
      | finish => exact ⟨_, rfl⟩
    · exact ⟨v, (s.storage.volume_setVolume_of_ne v' heq).trans hv⟩
  obtain ⟨v', hv'⟩ := hvolume
  exact s'.storage.getPath_eq_ok.mpr ⟨dir, v', (libvirtSem_target h _).trans hdir, hv', rfl⟩

/-- **The description of a volume** is given when it is created. Uploads
change the content only, and so the size and the backing store of a disk can
be read off the call that made it. -/
theorem libvirtSem_volume_xml {pool name : String} (h : libvirtSem s o r s')
    (hcreate : ∀ p xml flags, o = .storageVolCreateXML p xml flags →
      ¬ (pool = p.name ∧ name = xml.name))
    (hdelete : ∀ vol flags, o = .deleteVol vol flags → ¬ (pool = vol.pool ∧ name = vol.name)) :
    (s'.storage.volume pool name).map Volume.xml = (s.storage.volume pool name).map Volume.xml := by
  rcases libvirtSem_pools h with hpools | ⟨p, n, v, hedit, hpools⟩
  · rw [Storage.volume, hpools, Storage.volume]
  have hvolume : s'.storage.volume pool name
      = (s.storage.setVolume p n v).volume pool name := by
    rw [Storage.volume, hpools, Storage.volume]
  rw [hvolume]
  by_cases heq : pool = p ∧ name = n
  · cases hedit with
    | create => exact absurd heq (hcreate _ _ _ rfl)
    | delete => exact absurd heq (hdelete _ _ rfl)
    | upload hv =>
      obtain ⟨rfl, rfl⟩ := heq
      rw [s.storage.volume_setVolume_self _ (Storage.isSome_target_of_volume hv), hv]
      rfl
    | finish hv =>
      obtain ⟨rfl, rfl⟩ := heq
      rw [s.storage.volume_setVolume_self _ (Storage.isSome_target_of_volume hv), hv]
      rfl
  · rw [s.storage.volume_setVolume_of_ne v heq]

end Frame

/-! ## What the calls on a domain do -/

section Domain

variable {s s' : Host} {dom : DomainRef} {r : Except GoError Unit}

/-- A call on a domain is refused and changes nothing, or finds the domain in
the state it needs. -/
theorem Answers.onDomains {m : Except ErrorNumber Unit × Domains} {Q : Domain → Prop}
    {g : Domain → Domains} (h : Answers s (s.onDomains m) r s')
    (hm : (∃ e, m = (.error e, s.domains))
      ∨ ∃ d, s.domains.get dom = some d ∧ Q d ∧ m = (.ok (), g d)) :
    (∃ e, r = .error e) ∧ s' = s
    ∨ r = .ok () ∧ ∃ d, s.domains.get dom = some d ∧ Q d ∧ s' = { s with domains := g d } := by
  rcases h with ⟨⟨code, rfl⟩, rfl⟩ | ⟨rfl, rfl⟩
  · exact Or.inl ⟨⟨_, rfl⟩, rfl⟩
  · rcases hm with ⟨e, rfl⟩ | ⟨d, hd, hq, rfl⟩
    · exact Or.inl ⟨⟨_, rfl⟩, rfl⟩
    · exact Or.inr ⟨rfl, d, hd, hq, rfl⟩

theorem libvirtSem_setAutostart {autostart : Bool}
    (h : libvirtSem s (.setAutostart dom autostart) r s') :
    (∃ e, r = .error e) ∧ s' = s
    ∨ r = .ok () ∧ ∃ d, s.domains.get dom = some d ∧ d.persistent = true
      ∧ s' = { s with domains := s.domains.insert dom.name { d with autostart := autostart } } :=
  (LibvirtChoice.exists_answer.mp h).onDomains (Domains.setAutostart_cases dom autostart)

theorem libvirtSem_create (h : libvirtSem s (.create dom) r s') :
    (∃ e, r = .error e) ∧ s' = s
    ∨ r = .ok () ∧ ∃ d, s.domains.get dom = some d ∧ d.active = false
      ∧ s' = { s with
        domains := s.domains.insert dom.name { d with active := true, state := .running } } :=
  (LibvirtChoice.exists_answer.mp h).onDomains (Domains.create_cases dom)

theorem libvirtSem_destroy (h : libvirtSem s (.destroy dom) r s') :
    (∃ e, r = .error e) ∧ s' = s
    ∨ r = .ok () ∧ ∃ d, s.domains.get dom = some d ∧ d.active = true
      ∧ s' = { s with
        domains := if d.persistent then
          s.domains.insert dom.name { d with active := false, state := .shutoff }
        else s.domains.erase dom.name } :=
  (LibvirtChoice.exists_answer.mp h).onDomains (Domains.destroy_cases dom)

theorem libvirtSem_undefine (h : libvirtSem s (.undefine dom) r s') :
    (∃ e, r = .error e) ∧ s' = s
    ∨ r = .ok () ∧ ∃ d, s.domains.get dom = some d ∧ d.persistent = true
      ∧ s' = { s with
        domains := if d.active then
          s.domains.insert dom.name { d with persistent := false, autostart := false }
        else s.domains.erase dom.name } :=
  (LibvirtChoice.exists_answer.mp h).onDomains (Domains.undefine_cases dom)

end Domain

/-! ## What the lookups find -/

section Lookup

variable {s s' : Host}

theorem libvirtSem_lookupStoragePoolByName_ok {pool : String} {ref : StoragePoolRef}
    (h : libvirtSem s (.lookupStoragePoolByName pool) (.ok ref) s') :
    ref = ⟨pool⟩ ∧ (s.storage.target pool).isSome := by
  rcases LibvirtChoice.exists_answer.mp h with ⟨⟨code, hr⟩, -⟩ | ⟨hr, -⟩
  · cases hr
  · simp only [Storage.lookupStoragePoolByName] at hr
    split at hr <;> cases hr
    rename_i hpool
    exact ⟨rfl, by rw [Storage.target, hpool]; rfl⟩

theorem libvirtSem_lookupStorageVolByName_ok {pool : StoragePoolRef} {name : String}
    {ref : StorageVolRef} (h : libvirtSem s (.lookupStorageVolByName pool name) (.ok ref) s') :
    ref = ⟨pool.name, name⟩ := by
  rcases LibvirtChoice.exists_answer.mp h with ⟨⟨code, hr⟩, -⟩ | ⟨hr, -⟩
  · cases hr
  · simp only [Storage.lookupStorageVolByName] at hr
    split at hr <;> cases hr
    rfl

theorem libvirtSem_lookupNetworkByName_ok {net : String} {ref : NetworkRef}
    (h : libvirtSem s (.lookupNetworkByName net) (.ok ref) s') :
    ref = ⟨net⟩ ∧ ∃ network, s.networks net = some network := by
  rcases LibvirtChoice.exists_answer.mp h with ⟨⟨code, hr⟩, -⟩ | ⟨hr, -⟩
  · cases hr
  · simp only [Host.lookupNetworkByName] at hr
    split at hr <;> cases hr
    rename_i network hnet
    exact ⟨rfl, network, hnet⟩

end Lookup

/-! ## What the calls of an upload do -/

section Upload

variable {s s' : Host} {pool name : String} {stream : StreamRef} {v : Volume}

/-- **Creating a volume** where there is none of the name. -/
theorem libvirtSem_storageVolCreateXML {xml : StorageVolume} {flags : ℕ}
    {r : Except GoError StorageVolRef} (htarget : (s.storage.target pool).isSome)
    (hv : s.storage.volume pool xml.name = none)
    (h : libvirtSem s (.storageVolCreateXML ⟨pool⟩ xml flags) r s') :
    (∃ e, r = .error e) ∧ s' = s
    ∨ r = .ok ⟨pool, xml.name⟩ ∧ s'.storage.volume pool xml.name = some ⟨xml, none⟩ := by
  obtain ⟨p, hp⟩ := Option.isSome_iff_exists.mp (by simpa [Storage.target] using htarget)
  have hvol : p.volumes xml.name = none := by simpa [Storage.volume, hp] using hv
  have hm : s.onStorage (s.storage.storageVolCreateXML ⟨pool⟩ xml) = (.ok ⟨pool, xml.name⟩,
      { s with storage := s.storage.setVolume pool xml.name (some ⟨xml, none⟩) }) := by
    simp only [Storage.storageVolCreateXML, hp, hvol, Host.onStorage]
  rcases (LibvirtChoice.exists_answer.mp h).of_eq hm with ⟨⟨code, rfl⟩, rfl⟩ | ⟨rfl, rfl⟩
  · exact Or.inl ⟨⟨_, rfl⟩, rfl⟩
  · exact Or.inr ⟨rfl, s.storage.volume_setVolume_self _ htarget⟩

theorem libvirtSem_newStream_ok {flags : ℕ} (h : libvirtSem s (.newStream flags) (.ok stream) s') :
    s'.storage.streams stream.id = some ⟨none, []⟩ := by
  rcases LibvirtChoice.exists_answer.mp h with ⟨⟨code, hr⟩, -⟩ | ⟨hr, rfl⟩
  · cases hr
  · cases hr
    exact Function.update_self _ _ _

theorem libvirtSem_upload {st : Stream} {offset length flags : ℕ} {r : Except GoError Unit}
    (hv : s.storage.volume pool name = some v) (hst : s.storage.streams stream.id = some st)
    (h : libvirtSem s (.upload ⟨pool, name⟩ stream offset length flags) r s') :
    (∃ e, r = .error e) ∧ s' = s
    ∨ r = .ok () ∧ s'.storage.volume pool name = some { v with content := none }
      ∧ s'.storage.streams stream.id = some ⟨some (pool, name), []⟩ := by
  have hm := congrArg s.onStorage (s.storage.upload_eq hv hst)
  rcases (LibvirtChoice.exists_answer.mp h).of_eq hm with ⟨⟨code, rfl⟩, rfl⟩ | ⟨rfl, rfl⟩
  · exact Or.inl ⟨⟨_, rfl⟩, rfl⟩
  · exact Or.inr ⟨rfl,
      s.storage.volume_setVolume_self _ (Storage.isSome_target_of_volume hv),
      Function.update_self _ _ _⟩

theorem libvirtSem_sendAll {st : Stream} {chunks : List Bytes} {r : Except GoError Unit}
    (hst : s.storage.streams stream.id = some st)
    (h : libvirtSem s (.sendAll stream chunks) r s') :
    (∃ e, r = .error e) ∧ s' = s
    ∨ r = .ok () ∧ s'.storage.streams stream.id
        = some { st with sent := st.sent ++ chunks.flatten } := by
  have hm := congrArg s.onStorage (s.storage.sendAll_eq hst chunks)
  rcases (LibvirtChoice.exists_answer.mp h).of_eq hm with ⟨⟨code, rfl⟩, rfl⟩ | ⟨rfl, rfl⟩
  · exact Or.inl ⟨⟨_, rfl⟩, rfl⟩
  · exact Or.inr ⟨rfl, Function.update_self _ _ _⟩

theorem libvirtSem_finish {sent : Bytes} {r : Except GoError Unit}
    (hst : s.storage.streams stream.id = some ⟨some (pool, name), sent⟩)
    (hv : s.storage.volume pool name = some v) (h : libvirtSem s (.finish stream) r s') :
    (∃ e, r = .error e) ∧ s' = s
    ∨ r = .ok () ∧ s'.storage.volume pool name = some { v with content := some sent } := by
  have hm := congrArg s.onStorage (s.storage.finish_eq hst hv)
  rcases (LibvirtChoice.exists_answer.mp h).of_eq hm with ⟨⟨code, rfl⟩, rfl⟩ | ⟨rfl, rfl⟩
  · exact Or.inl ⟨⟨_, rfl⟩, rfl⟩
  · exact Or.inr ⟨rfl,
      Storage.volume_setVolume_self _ _ (Storage.isSome_target_of_volume hv)⟩

end Upload

end LibvirtProvider

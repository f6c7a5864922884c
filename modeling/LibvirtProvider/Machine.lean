import LibvirtProvider.Libvirt

/-!
# Creating and deleting a machine on a host

The model of `config.go`, `cloudinit.go`, `volume.go` and `domain.go`: what
the provider does over an open connection. Each function is a program over
the calls of `LibvirtSig`, in the order of the source, with the source's error
texts.

A machine has four things on its host: a root disk and a cloud-init image in
the domain pool, a DHCP host entry in the network, and the domain. Creating
one goes through them in this order and takes what is there already for done,
by name; deleting one goes through domain, disk, image and host entry and
takes what is not there for deleted. Whether something is there is learned from
the error of a lookup, so both depend on the code recognising that error
(`isLibvirtErr`, `isVolumeNotFound`), which it does in one form only.
-/

namespace LibvirtProvider

open Interaction

/-- A program over an open connection that can fail. -/
abbrev LibvirtM (α : Type) := ExceptT GoError (Prog LibvirtSig) α

/-! ## Configuration -/

/-- `TLSCredentials`. -/
structure TLSCredentials where
  caCert : Bytes
  clientCert : Bytes
  clientKey : Bytes
  deriving DecidableEq, Repr

/-- `SSHCredentials`. -/
structure SSHCredentials where
  privateKey : Bytes
  knownHosts : Bytes
  deriving DecidableEq, Repr

/-- `Credentials`. -/
structure Credentials where
  tls : Option TLSCredentials
  ssh : Option SSHCredentials
  deriving DecidableEq, Repr

/-- `InfraConfig`: where things are. The host is given by its URI, and pools
and network by their names there; nothing says that they exist. -/
structure InfraConfig where
  uri : String
  basePool : String
  domainPool : String
  network : String
  credentials : Option Credentials
  deriving DecidableEq, Repr

/-- `MachineConfig`: one machine on the infrastructure. Zero and empty stand
for a default, which the methods below fill in. -/
structure MachineConfig extends InfraConfig where
  domainName : String
  domainUUID : String
  hostname : String
  baseImage : String
  memoryMiB : UInt64
  vcpu : UInt64
  diskSize : UInt64
  userData : Bytes
  deriving DecidableEq, Repr

namespace MachineConfig

variable (c : MachineConfig)

/-- `MachineConfig.instanceID`: the domain UUID when known. -/
def instanceID : String := if c.domainUUID = "" then c.domainName else c.domainUUID

/-- `MachineConfig.hostname()`: the domain name when not set. -/
def guestHostname : String := if c.hostname = "" then c.domainName else c.hostname

/-- `MachineConfig.domainDiskName`. -/
def domainDiskName : String := c.domainName ++ ".qcow2"

/-- `MachineConfig.isoDiskName`. -/
def isoDiskName : String := "cloudinit-" ++ c.domainName ++ ".iso"

/-- `MachineConfig.memoryMiB()`. -/
def memory : UInt64 := if c.memoryMiB = 0 then defaultMemoryMiB else c.memoryMiB

/-- `MachineConfig.vCPU()`. -/
def vCPU : UInt64 := if c.vcpu = 0 then defaultCPU else c.vcpu

/-- `MachineConfig.diskSizeGiB`. -/
def diskSizeGiB : UInt64 := if c.diskSize = 0 then defaultVolumeCapacityGiB else c.diskSize

/-- The MAC of the machine's interface. -/
def mac : String := deriveDomainMAC c.domainName

/-- **The two volumes of a machine have different names**, so that what is
done to the one is not done to the other, though both are in one pool. -/
theorem domainDiskName_ne_isoDiskName : c.domainDiskName ≠ c.isoDiskName := by
  intro h
  have hlast := congrArg (fun s => s.toList.getLast?) h
  simp [domainDiskName, isoDiskName, String.toList_append, List.getLast?_cons] at hlast

end MachineConfig

/-! ## The calls, as functions of the connection and its handles -/

namespace Conn

def lookupStoragePoolByName (name : String) : LibvirtM StoragePoolRef :=
  ExceptT.mk (Prog.perform (σ := LibvirtSig) (.lookupStoragePoolByName name))

def lookupStorageVolByName (pool : StoragePoolRef) (name : String) : LibvirtM StorageVolRef :=
  ExceptT.mk (Prog.perform (σ := LibvirtSig) (.lookupStorageVolByName pool name))

def storageVolCreateXML (pool : StoragePoolRef) (xml : StorageVolume) (flags : ℕ) :
    LibvirtM StorageVolRef :=
  ExceptT.mk (Prog.perform (σ := LibvirtSig) (.storageVolCreateXML pool xml flags))

def getPath (vol : StorageVolRef) : LibvirtM String :=
  ExceptT.mk (Prog.perform (σ := LibvirtSig) (.getPath vol))

def deleteVol (vol : StorageVolRef) (flags : ℕ) : LibvirtM Unit :=
  ExceptT.mk (Prog.perform (σ := LibvirtSig) (.deleteVol vol flags))

def newStream (flags : ℕ) : LibvirtM StreamRef :=
  ExceptT.mk (Prog.perform (σ := LibvirtSig) (.newStream flags))

def upload (vol : StorageVolRef) (stream : StreamRef) (offset length flags : ℕ) :
    LibvirtM Unit :=
  ExceptT.mk (Prog.perform (σ := LibvirtSig) (.upload vol stream offset length flags))

def sendAll (stream : StreamRef) (chunks : List Bytes) : LibvirtM Unit :=
  ExceptT.mk (Prog.perform (σ := LibvirtSig) (.sendAll stream chunks))

def finish (stream : StreamRef) : LibvirtM Unit :=
  ExceptT.mk (Prog.perform (σ := LibvirtSig) (.finish stream))

def abort (stream : StreamRef) : LibvirtM Unit :=
  ExceptT.mk (Prog.perform (σ := LibvirtSig) (.abort stream))

def lookupDomainByName (name : String) : LibvirtM DomainRef :=
  ExceptT.mk (Prog.perform (σ := LibvirtSig) (.lookupDomainByName name))

def domainDefineXML (xml : DomainXML) : LibvirtM DomainRef :=
  ExceptT.mk (Prog.perform (σ := LibvirtSig) (.domainDefineXML xml))

def setAutostart (dom : DomainRef) (autostart : Bool) : LibvirtM Unit :=
  ExceptT.mk (Prog.perform (σ := LibvirtSig) (.setAutostart dom autostart))

def create (dom : DomainRef) : LibvirtM Unit :=
  ExceptT.mk (Prog.perform (σ := LibvirtSig) (.create dom))

def isActive (dom : DomainRef) : LibvirtM Bool :=
  ExceptT.mk (Prog.perform (σ := LibvirtSig) (.isActive dom))

def destroy (dom : DomainRef) : LibvirtM Unit :=
  ExceptT.mk (Prog.perform (σ := LibvirtSig) (.destroy dom))

def undefine (dom : DomainRef) : LibvirtM Unit :=
  ExceptT.mk (Prog.perform (σ := LibvirtSig) (.undefine dom))

def getState (dom : DomainRef) : LibvirtM DomainRunState :=
  ExceptT.mk (Prog.perform (σ := LibvirtSig) (.getState dom))

def lookupNetworkByName (name : String) : LibvirtM NetworkRef :=
  ExceptT.mk (Prog.perform (σ := LibvirtSig) (.lookupNetworkByName name))

/-- A program on the operations of a network. -/
def onNetwork {α : Type} (net : NetworkRef) (p : NetworkM α) : LibvirtM α :=
  ExceptT.mk (p.run.interp fun o => Prog.perform (σ := LibvirtSig) (.network net o))

/-- A call on the scratch image that answers nothing but success. -/
def iso (o : ISOOp) : LibvirtM o.Result :=
  ExceptT.mk (Prog.perform (σ := LibvirtSig) (.iso o))

end Conn

/-! ## The cloud-init image -/

/-- `isoDiskSize`. -/
def isoDiskSize : ℕ := 10 * 1024 * 1024

/-- `writeISOFile`. -/
def writeISOFile (name : String) (data : ISOFileData) : LibvirtM Unit := do
  ExceptT.adapt (.wrap s!"open cloud-init {name} file") (Conn.iso (.openFile name))
  match ← ExceptT.lift (Conn.iso (.write name data)).run with
  | .error err => do
    let closed ← ExceptT.lift (Conn.iso (.closeFile name)).run
    throw ((GoError.wrap s!"write cloud-init {name}" err).joinResult closed)
  | .ok _ => ExceptT.adapt (.wrap s!"close cloud-init {name} file") (Conn.iso (.closeFile name))

/-- `populateISO`. The file system it is given is an ISO one. -/
def populateISO (userData : Bytes) (metaData : CloudInitMetaData) : LibvirtM Unit := do
  writeISOFile "user-data" (.bytes userData)
  writeISOFile "meta-data" (.metaData metaData)
  ExceptT.adapt (.wrap "finalize ISO") (Conn.iso (.finalize "cidata" true))

/-- `buildCloudInitISO`. The deferred close of the disk adds its error to the
result, so that a call which has done all its work can still fail. -/
def buildCloudInitISO (isoPath : String) (cfg : MachineConfig) : LibvirtM Unit := do
  let metadata : CloudInitMetaData := ⟨cfg.instanceID, cfg.guestHostname⟩
  ExceptT.adapt (.wrap "create ISO disk") (Conn.iso (.create isoPath isoDiskSize))
  let body : LibvirtM Unit := do
    ExceptT.adapt (.wrap "create ISO filesystem") (Conn.iso (.createFilesystem 2048))
    match ← ExceptT.lift (populateISO cfg.userData metadata).run with
    | .error err => do
      let closed ← ExceptT.lift (Conn.iso .closeFilesystem).run
      throw (err.joinResult closed)
    | .ok _ => ExceptT.adapt (.wrap "close ISO filesystem") (Conn.iso .closeFilesystem)
  let result ← ExceptT.lift body.run
  match result, ← ExceptT.lift (Conn.iso .closeDisk).run with
  | .ok _, .ok _ => pure ()
  | .ok _, .error closeErr => throw (.wrap "close ISO disk" closeErr)
  | .error err, .ok _ => throw err
  | .error err, .error closeErr => throw (.join err (.wrap "close ISO disk" closeErr))

/-- `copyFile`. -/
def copyFile (path : String) : LibvirtM Bytes := do
  ExceptT.adapt (.wrap "open iso file") (Conn.iso (.openImage path))
  ExceptT.adapt (.wrap "copy ISO data") (Conn.iso (.copy path))

/-- `writeCloudInitISO`: the bytes written to the buffer. The image is built
in a scratch file and read back from it; the removal of the scratch directory,
whose result is dropped, is left out. -/
def writeCloudInitISO (cfg : MachineConfig) : LibvirtM Bytes := do
  let tmpDir : String ← ExceptT.adapt (.wrap "create temporary dir for ISO file")
    (Conn.iso (.mkdirTemp "iso-*"))
  let isoPath := tmpDir ++ "/" ++ cfg.isoDiskName
  buildCloudInitISO isoPath cfg
  copyFile isoPath

/-! ## Volumes -/

/-- `createVolume`. It can fail after the volume was created, namely when its
path cannot be had; the volume is then left as it is. -/
def createVolume (pool : StoragePoolRef) (volumeXML : StorageVolume) : LibvirtM String := do
  let vol ← ExceptT.adapt (.wrap "create disk volume")
    (Conn.storageVolCreateXML pool volumeXML 0)
  ExceptT.adapt (.wrap "get VM disk path") (Conn.getPath vol)

/-- `getVolumePath`: empty when the lookup says that there is no such volume
and that is recognised. Any other error of the lookup is passed on as it is. -/
def getVolumePath (pool : StoragePoolRef) (volumeName : String) : LibvirtM String := do
  match ← ExceptT.lift (Conn.lookupStorageVolByName pool volumeName).run with
  | .error err => if isVolumeNotFound err then pure "" else throw err
  | .ok vol => ExceptT.adapt (.wrap s!"get volume path for {volumeName}") (Conn.getPath vol)

/-- `createRootDisk`. A volume of the name is taken for the root disk,
whatever it is. Only where there is none is the base image looked for. -/
def createRootDisk (basePool domainPool : StoragePoolRef) (cfg : MachineConfig) :
    LibvirtM String := do
  let volumePath ← getVolumePath domainPool cfg.domainDiskName
  if volumePath ≠ "" then pure volumePath
  else do
    let baseImagePath ← getVolumePath basePool cfg.baseImage
    if baseImagePath = "" then
      throw (.text ("base image " ++ quote cfg.baseImage ++ " not found"))
    else
      ExceptT.adapt (.wrap "create root disk")
        (createVolume domainPool (((newVolume cfg.domainDiskName).withCapacity
          cfg.diskSizeGiB "G").withBackingStore baseImagePath defaultVolumeFormat))

/-- What the callback of `SendAll` returns, asked for `n` bytes at a time
until it returns nothing. Each round but the last takes a byte at least. -/
def readChunks (n : ℕ) : ℕ → Bytes → List Bytes
  | 0, _ => []
  | rounds + 1, data =>
    if (data.take n).length > 0 then data.take n :: readChunks n rounds (data.drop n) else []

/-- How much libvirt asks the callback for. -/
def streamBufferSize : ℕ := 262120

/-- `storageVolUpload`. The result of the abort is dropped. The content of the
volume is undefined from the start of the upload until `Finish` has returned. -/
def storageVolUpload (buff : Bytes) (vol : StorageVolRef) : LibvirtM Unit := do
  let stream ← ExceptT.adapt (.wrap "create new stream") (Conn.newStream 0)
  ExceptT.adapt (.wrap "start volume upload") (Conn.upload vol stream 0 buff.length 0)
  match ← ExceptT.lift
      (Conn.sendAll stream (readChunks streamBufferSize buff.length buff)).run with
  | .error err => do
    let _ ← ExceptT.lift (Conn.abort stream).run
    throw (.wrap "send volume data" err)
  | .ok _ => ExceptT.adapt (.wrap "finish volume upload") (Conn.finish stream)

/-- The description of the cloud-init volume, for an image. -/
def isoVolume (cfg : MachineConfig) (buff : Bytes) : StorageVolume :=
  ((newVolume cfg.isoDiskName).withCapacity buff.length.toUInt64 "bytes").withRawType

/-- `createISODisk`. A volume of the name is taken for the image, also one
that was never filled: between creating the volume and the end of the upload
there are several calls that can fail. -/
def createISODisk (domainPool : StoragePoolRef) (cfg : MachineConfig) : LibvirtM String := do
  let volumePath ← getVolumePath domainPool cfg.isoDiskName
  if volumePath ≠ "" then pure volumePath
  else do
    let buff ← ExceptT.adapt (.wrap "write cloud-init iso") (writeCloudInitISO cfg)
    let volumePath ← ExceptT.adapt (.wrap "create cloudinit disk")
      (createVolume domainPool (isoVolume cfg buff))
    let vol ← Conn.lookupStorageVolByName domainPool cfg.isoDiskName
    ExceptT.adapt (.wrap "upload data to volume") (storageVolUpload buff vol)
    pure volumePath

/-- `deleteVolume`. A pool or a volume that is not there is not an error,
provided that the error of the lookup is recognised. -/
def deleteVolume (poolName volumeName : String) : LibvirtM Unit := do
  match ← ExceptT.lift (Conn.lookupStoragePoolByName poolName).run with
  | .error err =>
    if isLibvirtErr err .noStoragePool then pure ()
    else throw (.wrap s!"lookup storage-pool {poolName}" err)
  | .ok pool =>
    match ← ExceptT.lift (Conn.lookupStorageVolByName pool volumeName).run with
    | .error err =>
      if isVolumeNotFound err then pure ()
      else throw (.wrap s!"lookup volume {volumeName} in pool {poolName}" err)
    | .ok vol =>
      ExceptT.adapt (.wrap s!"delete volume {volumeName} from pool {poolName}")
        (Conn.deleteVol vol 0)

/-! ## Domains -/

/-- The description of a machine's domain. It is a function of the
configuration and of the paths of the two volumes; nothing of it depends on
what was found on the host besides. -/
def machineDomain (cfg : MachineConfig) (diskPath cloudISOPath : String) : DomainXML :=
  (newDomain cfg.domainName
    |>.withUUID cfg.domainUUID
    |>.withMemoryMiB cfg.memory
    |>.withVCPU cfg.vCPU
    |>.withDiskFile diskPath
    |>.withCloudInitISO cloudISOPath
    |>.withNetwork cfg.network cfg.mac
    |>.withSerialConsole)

/-- The last part of `createDomain`: define the domain and start it. -/
def defineAndStart (cfg : MachineConfig) (domainXML : DomainXML) : LibvirtM Unit := do
  let domain ← ExceptT.adapt (.wrap s!"define domain {cfg.domainName}")
    (Conn.domainDefineXML domainXML)
  ExceptT.adapt (.wrap "set domain autostart") (Conn.setAutostart domain true)
  ExceptT.adapt (.wrap s!"create domain {cfg.domainName}") (Conn.create domain)

/-- `createDomain`. Volumes, host entry and domain are made in this order, and
nothing is taken back when a later step fails: an attempt leaves what it has
made for the next one to find. -/
def createDomain (cfg : MachineConfig) : LibvirtM Unit := do
  let domainPool ← ExceptT.adapt (.wrap s!"lookup domain disk pool {cfg.domainPool}")
    (Conn.lookupStoragePoolByName cfg.domainPool)
  let basePool ← ExceptT.adapt (.wrap s!"lookup base disk pool {cfg.basePool}")
    (Conn.lookupStoragePoolByName cfg.basePool)
  let diskPath ← ExceptT.adapt (.wrap s!"create base disk pool {cfg.basePool}")
    (createRootDisk basePool domainPool cfg)
  let cloudISOPath ← ExceptT.adapt (.wrap s!"create iso disk {cfg.basePool}")
    (createISODisk domainPool cfg)
  let network ← ExceptT.adapt (.wrap s!"lookup network {cfg.network}")
    (Conn.lookupNetworkByName cfg.network)
  let _ ← Conn.onNetwork network (reserveMachineIP cfg.network cfg.domainName cfg.mac)
  defineAndStart cfg (machineDomain cfg diskPath cloudISOPath)

/-- `deleteDomain`. A domain that is not there is not an error, if that is
recognised. An error of `IsActive` is dropped, and the domain is then treated
as one that is not running. -/
def deleteDomain (name : String) : LibvirtM Unit := do
  match ← ExceptT.lift (Conn.lookupDomainByName name).run with
  | .error err =>
    if isLibvirtErr err .noDomain then pure () else throw (.wrap s!"lookup domain {name}" err)
  | .ok dom =>
    match ← ExceptT.lift (Conn.isActive dom).run with
    | .ok true => ExceptT.adapt (.wrap s!"destroy domain {name}") (Conn.destroy dom)
    | _ => pure ()
    ExceptT.adapt (.wrap s!"undefine domain {name}") (Conn.undefine dom)

/-- `DomainState`. -/
inductive DomainState where
  | notFound
  | running
  | stopped
  | unknown
  deriving DecidableEq, Repr

/-- The switch of `getDomainState`. A domain that is paused or suspended is
neither running nor stopped for the controller, and it does nothing about it. -/
def DomainState.of : DomainRunState → DomainState
  | .running => .running
  | .shutoff | .shutdown | .crashed => .stopped
  | .paused | .blocked | .pmsuspended => .unknown
  | .nostate => .unknown

/-- `getDomainState`. `notFound` is the answer that makes the controller
create a machine; it is given only where the error of the lookup is recognised
as one that says so. -/
def getDomainState (name : String) : LibvirtM DomainState := do
  match ← ExceptT.lift (Conn.lookupDomainByName name).run with
  | .error err =>
    if isLibvirtErr err .noDomain then pure .notFound
    else throw (.wrap ("lookup domain " ++ quote name) err)
  | .ok dom => do
    let state ← ExceptT.adapt (.wrap ("get domain state " ++ quote name)) (Conn.getState dom)
    pure (.of state)

/-! ## What the provider's operations do once they are connected -/

/-- The body of `StartMachine`. -/
def startDomain (cfg : MachineConfig) : LibvirtM Unit := do
  let domain ← ExceptT.adapt (.wrap s!"lookup domain {cfg.domainName}")
    (Conn.lookupDomainByName cfg.domainName)
  ExceptT.adapt (.wrap s!"start domain {cfg.domainName}") (Conn.create domain)

/-- `releaseMachineReservation`. A network that is not there is not an error,
if that is recognised. -/
def releaseMachineReservation (cfg : MachineConfig) : LibvirtM Unit := do
  match ← ExceptT.lift (Conn.lookupNetworkByName cfg.network).run with
  | .error err =>
    if isLibvirtErr err .noNetwork then pure ()
    else throw (.wrap s!"lookup network {cfg.network}" err)
  | .ok network =>
    Conn.onNetwork network (releaseMachineIP cfg.network cfg.domainName cfg.mac)

/-- The body of `DeleteMachine`. The domain comes first, so that no guest is
running on a disk that is being removed; the first failure ends it, and the
rest is left for the next time. -/
def deleteResources (cfg : MachineConfig) : LibvirtM Unit := do
  deleteDomain cfg.domainName
  deleteVolume cfg.domainPool cfg.domainDiskName
  deleteVolume cfg.domainPool cfg.isoDiskName
  releaseMachineReservation cfg

/-- The body of `GetMachineAddress`. -/
def machineAddressOn (cfg : MachineConfig) : LibvirtM String := do
  let network ← ExceptT.adapt (.wrap s!"lookup network {cfg.network}")
    (Conn.lookupNetworkByName cfg.network)
  Conn.onNetwork network (machineAddress cfg.network cfg.mac)

/-! ## Which calls are made -/

section Calls

variable {P : LibvirtSig.Op → Prop}

theorem iso_calls (hq : ∀ o : LibvirtOp, o.asksStorage = true → P o) (o : ISOOp) :
    (Conn.iso o).run.Calls P :=
  ⟨hq _ rfl, fun _ => trivial⟩

theorem writeISOFile_calls (hq : ∀ o : LibvirtOp, o.asksStorage = true → P o) (name : String)
    (data : ISOFileData) : (writeISOFile name data).run.Calls P := by
  refine .bind_except (.adapt (iso_calls hq _)) fun _ => .lift_bind (iso_calls hq _) fun r => ?_
  cases r with
  | error err => exact .lift_bind (iso_calls hq _) fun _ => trivial
  | ok _ => exact .adapt (iso_calls hq _)

/-- **Building the image does not concern the host.** -/
theorem writeCloudInitISO_calls (hq : ∀ o : LibvirtOp, o.asksStorage = true → P o)
    (cfg : MachineConfig) : (writeCloudInitISO cfg).run.Calls P := by
  have hpopulate : ∀ userData metaData, (populateISO userData metaData).run.Calls P :=
    fun _ _ => .bind_except (writeISOFile_calls hq _ _) fun _ =>
      .bind_except (writeISOFile_calls hq _ _) fun _ => .adapt (iso_calls hq _)
  have hbuild : ∀ isoPath, (buildCloudInitISO isoPath cfg).run.Calls P := by
    intro isoPath
    refine .bind_except (.adapt (iso_calls hq _)) fun _ => .lift_bind ?_ fun result => ?_
    · refine .bind_except (.adapt (iso_calls hq _)) fun _ => .lift_bind (hpopulate _ _) fun r => ?_
      cases r with
      | error err => exact .lift_bind (iso_calls hq _) fun _ => trivial
      | ok _ => exact .adapt (iso_calls hq _)
    · refine .lift_bind (iso_calls hq _) fun closed => ?_
      cases result <;> cases closed <;> trivial
  exact .bind_except (.adapt (iso_calls hq _)) fun _ => .bind_except (hbuild _) fun _ =>
    .bind_except (.adapt (iso_calls hq _)) fun _ => .adapt (iso_calls hq _)

theorem getVolumePath_calls (hq : ∀ o : LibvirtOp, o.asksStorage = true → P o)
    (pool : StoragePoolRef) (name : String) : (getVolumePath pool name).run.Calls P := by
  refine .lift_bind ⟨hq _ rfl, fun _ => trivial⟩ fun r => ?_
  cases r with
  | error err =>
    dsimp only
    split <;> trivial
  | ok vol => exact .adapt ⟨hq _ rfl, fun _ => trivial⟩

/-- **The root disk**: beside queries, the volume of that name is created.
With `P` a property that a call has when it leaves something alone, this says
what making the disk does not touch. -/
theorem createRootDisk_calls (hq : ∀ o : LibvirtOp, o.asksStorage = true → P o)
    {basePool domainPool : StoragePoolRef} {cfg : MachineConfig}
    (hcreate : ∀ xml, xml.name = cfg.domainDiskName → P (.storageVolCreateXML domainPool xml 0)) :
    (createRootDisk basePool domainPool cfg).run.Calls P := by
  refine .bind_except (getVolumePath_calls hq _ _) fun volumePath => ?_
  split
  · trivial
  · refine .bind_except (getVolumePath_calls hq _ _) fun baseImagePath => ?_
    split
    · trivial
    · exact .adapt (.bind_except (.adapt ⟨hcreate _ rfl, fun _ => trivial⟩) fun _ =>
        .adapt ⟨hq _ rfl, fun _ => trivial⟩)

theorem storageVolUpload_calls {buff : Bytes} {vol : StorageVolRef} (hnew : P (.newStream 0))
    (hupload : ∀ stream, P (.upload vol stream 0 buff.length 0))
    (hsend : ∀ stream chunks, P (.sendAll stream chunks)) (hfinish : ∀ stream, P (.finish stream))
    (habort : ∀ stream, P (.abort stream)) : (storageVolUpload buff vol).run.Calls P := by
  refine .bind_except (.adapt ⟨hnew, fun _ => trivial⟩) fun stream =>
    .bind_except (.adapt ⟨hupload stream, fun _ => trivial⟩) fun _ =>
      .lift_bind ⟨hsend stream _, fun _ => trivial⟩ fun r => ?_
  cases r with
  | error err => exact .lift_bind ⟨habort stream, fun _ => trivial⟩ fun _ => trivial
  | ok _ => exact .adapt ⟨hfinish stream, fun _ => trivial⟩

/-- **The cloud-init volume**: beside queries, the volume of that name is
created and filled. -/
theorem createISODisk_calls (hq : ∀ o : LibvirtOp, o.asksStorage = true → P o)
    {pool : StoragePoolRef} {cfg : MachineConfig}
    (hcreate : ∀ xml, xml.name = cfg.isoDiskName → P (.storageVolCreateXML pool xml 0))
    (hstream : ∀ o : LibvirtOp, o.streams = true → P o) :
    (createISODisk pool cfg).run.Calls P := by
  refine .bind_except (getVolumePath_calls hq _ _) fun volumePath => ?_
  split
  · trivial
  · refine .bind_except (.adapt (writeCloudInitISO_calls hq cfg)) fun buff =>
      .bind_except (.adapt (.bind_except (.adapt ⟨hcreate _ rfl, fun _ => trivial⟩) fun _ =>
        .adapt ⟨hq _ rfl, fun _ => trivial⟩)) fun path =>
      .bind_except ⟨hq _ rfl, fun _ => trivial⟩ fun vol =>
      .bind_except (.adapt ?_) fun _ => trivial
    exact storageVolUpload_calls (hstream _ rfl) (fun _ => hstream _ rfl)
      (fun _ _ => hstream _ rfl) (fun _ => hstream _ rfl) fun _ => hstream _ rfl

/-- On a network, the calls are those made of it. -/
theorem onNetwork_calls_of {α : Type} {net : NetworkRef} {P' : NetworkOp → Prop} {p : NetworkM α}
    (hp : p.run.Calls P') (hnet : ∀ o, P' o → P (.network net o)) :
    (Conn.onNetwork net p).run.Calls P :=
  hp.interp fun o ho => ⟨hnet o ho, fun _ => trivial⟩

theorem onNetwork_calls {α : Type} {net : NetworkRef} (hnet : ∀ o, P (.network net o))
    (p : NetworkM α) : (Conn.onNetwork net p).run.Calls P :=
  onNetwork_calls_of (Prog.calls_of_forall hnet p.run) fun _ => id

theorem defineAndStart_calls {cfg : MachineConfig} {xml : DomainXML}
    (hdefine : P (.domainDefineXML xml)) (hauto : ∀ dom, P (.setAutostart dom true))
    (hcreate : ∀ dom, P (.create dom)) : (defineAndStart cfg xml).run.Calls P :=
  .bind_except (.adapt ⟨hdefine, fun _ => trivial⟩) fun _ =>
    .bind_except (.adapt ⟨hauto _, fun _ => trivial⟩) fun _ =>
      .adapt ⟨hcreate _, fun _ => trivial⟩

theorem deleteDomain_calls (hq : ∀ o : LibvirtOp, o.isQuery = true → P o)
    (hdestroy : ∀ dom, P (.destroy dom)) (hundefine : ∀ dom, P (.undefine dom)) (name : String) :
    (deleteDomain name).run.Calls P := by
  refine .lift_bind ⟨hq _ rfl, fun _ => trivial⟩ fun r => ?_
  cases r with
  | error err =>
    dsimp only
    split <;> trivial
  | ok dom =>
    refine .lift_bind ⟨hq _ rfl, fun _ => trivial⟩ fun active => ?_
    dsimp only
    split
    · exact .bind_except (.adapt ⟨hdestroy dom, fun _ => trivial⟩) fun _ =>
        .adapt ⟨hundefine dom, fun _ => trivial⟩
    · exact .adapt ⟨hundefine dom, fun _ => trivial⟩

theorem deleteVolume_calls (hpool : ∀ name, P (.lookupStoragePoolByName name))
    (hvol : ∀ pool name, P (.lookupStorageVolByName pool name))
    (hdelete : ∀ vol, P (.deleteVol vol 0)) (poolName volumeName : String) :
    (deleteVolume poolName volumeName).run.Calls P := by
  refine .lift_bind ⟨hpool _, fun _ => trivial⟩ fun r => ?_
  cases r with
  | error err =>
    dsimp only
    split <;> trivial
  | ok pool =>
    refine .lift_bind ⟨hvol _ _, fun _ => trivial⟩ fun r => ?_
    cases r with
    | error err =>
      dsimp only
      split <;> trivial
    | ok vol => exact .adapt ⟨hdelete vol, fun _ => trivial⟩

/-- A release is two calls at most, and it computes nothing that might not
end. -/
theorem releaseMachineIP_calls (netName domainName mac : String) :
    (releaseMachineIP netName domainName mac).run.Calls (· ≠ NetworkOp.hang) := by
  have hget : networkXML.run.Calls (· ≠ NetworkOp.hang) := by
    refine .bind_except (.adapt ⟨nofun, fun _ => trivial⟩) fun xml => ?_
    cases xml <;> trivial
  refine .bind_except hget fun network => ?_
  cases hostEntryInNetwork network mac with
  | none => trivial
  | some existing => exact .adapt ⟨nofun, fun _ => trivial⟩

theorem releaseMachineReservation_calls (hlookup : ∀ name, P (.lookupNetworkByName name))
    (hnet : ∀ net o, o ≠ NetworkOp.hang → P (.network net o)) (cfg : MachineConfig) :
    (releaseMachineReservation cfg).run.Calls P := by
  refine .lift_bind ⟨hlookup _, fun _ => trivial⟩ fun r => ?_
  cases r with
  | error err =>
    dsimp only
    split <;> trivial
  | ok net =>
    exact onNetwork_calls_of (releaseMachineIP_calls _ _ _) (hnet net)

end Calls

end LibvirtProvider

import Mathlib

/-!
# Domain and volume descriptions

The model of the package `builders`: the descriptions of a domain and of a
storage volume that the provider hands to libvirt, and the builders that put
them together. The structures are those of `libvirtxml`, with the elements
the builders set; a marshalled description is represented by the description
it encodes.
-/

namespace LibvirtProvider

/-! ## Volumes -/

/-- `libvirtxml.StorageVolumeSize`. -/
structure StorageVolumeSize where
  value : UInt64
  unit : String
  deriving DecidableEq, Repr

/-- `libvirtxml.StorageVolumeBackingStore`, with the type of its format. -/
structure StorageVolumeBackingStore where
  path : String
  format : String
  deriving DecidableEq, Repr

/-- `libvirtxml.StorageVolume`, with the type of its target's format. A
backing store makes it an overlay: the volume has what was written to it, over
the image at the path. -/
structure StorageVolume where
  name : String
  capacity : StorageVolumeSize
  format : String
  backingStore : Option StorageVolumeBackingStore
  deriving DecidableEq, Repr

/-- `DefaultVolumeCapacityGiB`. -/
def defaultVolumeCapacityGiB : UInt64 := 20

/-- `DefaultVolumeFormat`. -/
def defaultVolumeFormat : String := "qcow2"

/-- `RawVolumeFormat`. -/
def rawVolumeFormat : String := "raw"

/-- `NewVolume`: an overlay format and a default capacity, both of which a
later builder call may replace. -/
def newVolume (name : String) : StorageVolume where
  name := name
  capacity := ⟨defaultVolumeCapacityGiB, "G"⟩
  format := defaultVolumeFormat
  backingStore := none

namespace StorageVolume

/-- `VolumeBuilder.WithRawType`. -/
def withRawType (b : StorageVolume) : StorageVolume := { b with format := rawVolumeFormat }

/-- `VolumeBuilder.WithCapacity`. -/
def withCapacity (b : StorageVolume) (size : UInt64) (unit : String) : StorageVolume :=
  { b with capacity := ⟨size, unit⟩ }

/-- `VolumeBuilder.WithBackingStore`. -/
def withBackingStore (b : StorageVolume) (path format : String) : StorageVolume :=
  { b with backingStore := some ⟨path, format⟩ }

end StorageVolume

/-! ## Domains -/

/-- `libvirtxml.DomainDisk`: a disk or a CD-ROM backed by a file. -/
structure DomainDisk where
  device : String
  driverName : String
  driverType : String
  file : String
  targetDev : String
  targetBus : String
  readOnly : Bool
  deriving DecidableEq, Repr

/-- `libvirtxml.DomainInterface`: an interface on a network. -/
structure DomainInterface where
  network : String
  model : String
  mac : Option String
  deriving DecidableEq, Repr

/-- `libvirtxml.Domain`, with the elements that the builders set. The UUID is
empty when it is left to libvirt, and disks and interfaces stand in the order
in which they were added. -/
structure DomainXML where
  type : String
  name : String
  uuid : String
  memory : UInt64
  memoryUnit : String
  vcpu : UInt64
  osType : String
  osArch : String
  bootDev : String
  disks : List DomainDisk
  interfaces : List DomainInterface
  serialPorts : List ℕ
  consoles : List (String × ℕ)
  deriving DecidableEq, Repr

/-- `DefaultMemoryMiB`. -/
def defaultMemoryMiB : UInt64 := 1024

/-- `DefaultCPU`. -/
def defaultCPU : UInt64 := 1

/-- `NewDomain`. -/
def newDomain (name : String) : DomainXML where
  type := "kvm"
  name := name
  uuid := ""
  memory := defaultMemoryMiB
  memoryUnit := "MiB"
  vcpu := defaultCPU
  osType := "hvm"
  osArch := "x86_64"
  bootDev := "hd"
  disks := []
  interfaces := []
  serialPorts := []
  consoles := []

namespace DomainXML

/-- `DomainBuilder.WithUUID`. -/
def withUUID (b : DomainXML) (uuid : String) : DomainXML := { b with uuid := uuid }

/-- `DomainBuilder.WithMemoryMiB`. -/
def withMemoryMiB (b : DomainXML) (memory : UInt64) : DomainXML :=
  { b with memory := memory, memoryUnit := "MiB" }

/-- `DomainBuilder.WithVCPU`. -/
def withVCPU (b : DomainXML) (vcpu : UInt64) : DomainXML := { b with vcpu := vcpu }

/-- `DomainBuilder.WithDiskFile`. -/
def withDiskFile (b : DomainXML) (path : String) : DomainXML :=
  { b with disks := b.disks ++ [⟨"disk", "qemu", "qcow2", path, "vda", "virtio", false⟩] }

/-- `DomainBuilder.WithCloudInitISO`. -/
def withCloudInitISO (b : DomainXML) (path : String) : DomainXML :=
  { b with disks := b.disks ++ [⟨"cdrom", "qemu", "raw", path, "sda", "sata", true⟩] }

/-- `DomainBuilder.WithNetwork`. Without a name the interface is on the
network `default`, and without a MAC libvirt makes one up. -/
def withNetwork (b : DomainXML) (name mac : String) : DomainXML :=
  let name := if name = "" then "default" else name
  let iface : DomainInterface := ⟨name, "virtio", if mac = "" then none else some mac⟩
  { b with interfaces := b.interfaces ++ [iface] }

/-- `DomainBuilder.WithSerialConsole`. -/
def withSerialConsole (b : DomainXML) : DomainXML :=
  { b with serialPorts := b.serialPorts ++ [0], consoles := b.consoles ++ [("serial", 0)] }

end DomainXML

end LibvirtProvider

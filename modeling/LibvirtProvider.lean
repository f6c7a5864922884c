import LibvirtProvider.Interaction
import LibvirtProvider.Interleaving
import LibvirtProvider.Ensures
import LibvirtProvider.ProbeTable
import LibvirtProvider.FileTree
import LibvirtProvider.WorkQueue
import LibvirtProvider.GoText
import LibvirtProvider.QueryText
import LibvirtProvider.IPAddr
import LibvirtProvider.Sha256
import LibvirtProvider.MachineNetwork
import LibvirtProvider.HostEntries
import LibvirtProvider.Candidates
import LibvirtProvider.NetworkForm
import LibvirtProvider.Reservation
import LibvirtProvider.Allocation
import LibvirtProvider.AddressText
import LibvirtProvider.ReserveRelease
import LibvirtProvider.ReservationRace
import LibvirtProvider.Builders
import LibvirtProvider.Libvirt
import LibvirtProvider.Machine
import LibvirtProvider.ConnectionURI
import LibvirtProvider.Paths
import LibvirtProvider.Provider
import LibvirtProvider.Connect
import LibvirtProvider.Connections
import LibvirtProvider.CloudInit
import LibvirtProvider.Cleanup
import LibvirtProvider.DomainHandles
import LibvirtProvider.Api
import LibvirtProvider.CredentialsLoader
import LibvirtProvider.MachineController
import LibvirtProvider.DomainName
import LibvirtProvider.Exits
import LibvirtProvider.Finalizer
import LibvirtProvider.Manager
import LibvirtProvider.Identity
import LibvirtProvider.Ownership
import LibvirtProvider.Relocation
import LibvirtProvider.Elements
import LibvirtProvider.Infra
import LibvirtProvider.ClusterController
import LibvirtProvider.Status
import LibvirtProvider.Pause
import LibvirtProvider.Finished
import LibvirtProvider.Settling
import LibvirtProvider.Provisioning
import LibvirtProvider.ReservationTable
import LibvirtProvider.Footprint
import LibvirtProvider.Restart
import LibvirtProvider.Setup
import LibvirtProvider.Bootstrap
import LibvirtProvider.Upkeep
import LibvirtProvider.Convergence
import LibvirtProvider.ClusterConvergence
import LibvirtProvider.Precedence
import LibvirtProvider.Wakeups

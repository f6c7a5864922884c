import LibvirtProvider.Api
import LibvirtProvider.Provider
import LibvirtProvider.Sha256

/-!
# The machine controller

The model of `libvirtmachine_controller.go`: one call of `Reconcile` is a
program over the requests to the API server and the operations of the
provider. The object it works on is passed along and comes back changed; the
deferred patch is made of what was read and what came back.

What a reconcile can do to the object and to the host is said by a monitor
(`reconcileMonitor`): it records what was read and answered, and says in each
situation which requests and operations are allowed. That the program keeps to
it follows from the list of its exits, in `Exits`.
-/

namespace LibvirtProvider

open Interaction

/-! ## The calls -/

/-- **The interface `provider`**, for machines. The controller is looked at
against this interface, with any answers, and against the provider of
`provider.go`, whose answers come from a host. -/
inductive MachineOp where
  | getMachineState (cfg : MachineConfig)
  | createMachine (cfg : MachineConfig)
  | startMachine (cfg : MachineConfig)
  | deleteMachine (cfg : MachineConfig)
  | getMachineAddress (cfg : MachineConfig)

/-- What the operations return. -/
def MachineOp.Result : MachineOp → Type
  | .getMachineState _ => Except GoError DomainState
  | .createMachine _ => Except GoError Unit
  | .startMachine _ => Except GoError Unit
  | .deleteMachine _ => Except GoError Unit
  | .getMachineAddress _ => Except GoError String

/-- What the machine controller calls. -/
inductive ControllerOp where
  | api (o : ApiOp)
  | provider (o : MachineOp)

/-- The signature of the machine controller. -/
def ControllerSig : Signature where
  Op := ControllerOp
  Ans
    | .api o => o.Result
    | .provider o => o.Result

/-- A program of the machine controller. -/
abbrev ControllerM (α : Type) := Prog ControllerSig α

/-- A request. -/
def api (o : ApiOp) : ControllerM o.Result := Prog.perform (σ := ControllerSig) (.api o)

/-- An operation of the provider. -/
def provider (o : MachineOp) : ControllerM o.Result :=
  Prog.perform (σ := ControllerSig) (.provider o)

/-! ## Names and identities -/

/-- `providerIDPrefix`. -/
def providerIDPrefix : String := "libvirt://"

/-- `domainNameMaxLength`. -/
def domainNameMaxLength : ℕ := 63

/-- `domainNameHashLength`. -/
def domainNameHashLength : ℕ := 6

/-- `strings.TrimRight` of a list of characters, for one character. -/
def trimRight (c : Char) (l : List Char) : List Char := l.rdropWhile (· == c)

/-- `domainName`, given the digest. Names of objects are ASCII, so that a
character is a byte. -/
def domainNameOf (digest : Bytes) (nmspace name : String) : String :=
  let hash := (digest.flatMap fun b => (hexByte b).toList).take domainNameHashLength
  let label := nmspace.toList ++ '-' :: name.toList.map fun c => if c = '.' then '-' else c
  let maxLength := domainNameMaxLength - 1 - domainNameHashLength
  let label := if label.length > maxLength then trimRight '-' (label.take maxLength) else label
  String.ofList (label ++ '-' :: hash)

/-- `domainName`. It depends on the namespace and the name of the object only,
and not on its UID or on the management cluster it is in. -/
def domainName (m : LibvirtMachine) : String :=
  domainNameOf (Sha256.sum256 (m.nmspace ++ "/" ++ m.name).toUTF8.data.toList) m.nmspace m.name

/-- `domainUUID`. The provider ID comes first, so that an object which has one
keeps its UUID when it gets a new UID. -/
def domainUUID (m : LibvirtMachine) : String :=
  match m.spec.providerID with
  | none => m.uid
  | some providerID => trimPrefix providerID providerIDPrefix

/-- `setProviderID`. It is set once; a second call does nothing, whatever the
UID is by then. -/
def setProviderID (m : LibvirtMachine) : LibvirtMachine :=
  match m.spec.providerID with
  | some _ => m
  | none => { m with spec := { m.spec with providerID := some (providerIDPrefix ++ domainUUID m) } }

/-- Go's conversion of an `int32` to an unsigned 64-bit number. -/
def toUnsigned (n : Int32) : UInt64 := n.toInt64.toUInt64

/-- `newMachineConfig`. It is computed anew in every reconcile, from the spec
of the cluster as it is then: where a machine was created is not kept
anywhere. -/
def newMachineConfig (m : LibvirtMachine) (c : LibvirtCluster) : MachineConfig where
  uri := c.spec.uri
  basePool := c.spec.basePool
  domainPool := c.spec.domainPool
  network := c.spec.network
  credentials := none
  domainName := domainName m
  hostname := m.name
  domainUUID := domainUUID m
  baseImage := m.spec.image
  memoryMiB := toUnsigned m.spec.memoryMiB
  vcpu := toUnsigned m.spec.vcpu
  diskSize := toUnsigned m.spec.diskGiB
  userData := []

/-! ## Results -/

/-- `ctrl.Result` and the error. Times are in seconds. -/
structure Outcome where
  requeueAfter : Option ℕ := none
  err : Option GoError := none
  deriving DecidableEq, Repr

/-- `requeueTimeShort`. -/
def requeueTimeShort : ℕ := 30

/-- `domainStateCheckInterval`. -/
def domainStateCheckInterval : ℕ := 60

/-- `MachineScope`. -/
structure MachineScope where
  cluster : Cluster
  machine : Machine
  libvirtCluster : LibvirtCluster
  libvirtMachine : LibvirtMachine
  machineConfig : MachineConfig

namespace LibvirtMachine

variable (m : LibvirtMachine)

/-- `conditions.Set` on the object. -/
def withCondition (type : ConditionType) (status : ConditionStatus) (reason : ConditionReason)
    (message : String) : LibvirtMachine :=
  { m with status := { m.status with
      conditions := setCondition m.status.conditions ⟨type, status, reason, message⟩ } }

/-- `Status.Ready`. -/
def withReady (ready : Bool) : LibvirtMachine :=
  { m with status := { m.status with ready := ready } }

/-- `Status.Initialization.Provisioned`. -/
def withProvisioned (provisioned : Bool) : LibvirtMachine :=
  { m with status := { m.status with provisioned := provisioned } }

/-- `Status.Addresses`. -/
def withAddresses (addresses : List String) : LibvirtMachine :=
  { m with status := { m.status with addresses := addresses } }

/-- `controllerutil.AddFinalizer`, where it is not there. -/
def addFinalizer : LibvirtMachine :=
  { m with finalizers := m.finalizers ++ [libvirtMachineFinalizer] }

/-- `controllerutil.RemoveFinalizer`. -/
def removeFinalizer : LibvirtMachine :=
  { m with finalizers := m.finalizers.filter (· ≠ libvirtMachineFinalizer) }

end LibvirtMachine

/-- `annotations.IsPaused`. -/
def isPaused (cluster : Cluster) (m : LibvirtMachine) : Bool :=
  cluster.paused == some true || m.pausedAnnotation

/-- The text of a libvirt error. Only the code is known. -/
def ErrorNumber.message : ErrorNumber → String
  | .noDomain => "virError(Code=42)"
  | .noStoragePool => "virError(Code=49)"
  | .noStorageVol => "virError(Code=50)"
  | .noNetwork => "virError(Code=43)"
  | .other code => s!"virError(Code={code})"

/-- The text of an error. `libvirt.Error` and `*libvirt.Error` have the same. -/
def GoError.message : GoError → String
  | .libvirt code => code.message
  | .libvirtPtr code => code.message
  | .text msg => msg
  | .wrap context err => context ++ ": " ++ err.message
  | .join err err' => err.message ++ "\n" ++ err'.message

/-! ## Reconciling an object -/

/-- `getCloudInitData`. -/
def getCloudInitData (scope : MachineScope) (dataSecretName : String) :
    ControllerM (Except GoError Bytes) := do
  let key : NamespacedName := ⟨scope.machine.nmspace, dataSecretName⟩
  match (← api (.getSecretValue key) : Except GoError (Option Bytes)) with
  | .error err => return .error err
  | .ok none => return .error (.text ("no userData key found in secret " ++ key.text))
  | .ok (some userData) => return .ok userData

/-- `reconcileLostDomain`. A machine that has been there is not created again;
it stays provisioned, is no longer ready, and waits to be replaced. -/
def reconcileLostDomain (scope : MachineScope) (m : LibvirtMachine) : LibvirtMachine × Outcome :=
  (((m.withReady false).withAddresses []).withCondition .domainRunning .no .domainNotFound
      ("Domain " ++ scope.machineConfig.domainName
        ++ " was deleted on the libvirt host, delete the Machine to replace it"),
    { requeueAfter := some domainStateCheckInterval })

/-- `observeMachineAddress`. No address is no error: the guest has not asked
for one yet, and the object is looked at again soon. -/
def observeMachineAddress (scope : MachineScope) (m : LibvirtMachine) :
    ControllerM (LibvirtMachine × Outcome) := do
  match (← provider (.getMachineAddress scope.machineConfig) : Except GoError String) with
  | .error _ => return (m, { requeueAfter := some requeueTimeShort })
  | .ok address =>
    if address = "" then return (m, { requeueAfter := some requeueTimeShort })
    else return (m.withAddresses [address], { requeueAfter := some domainStateCheckInterval })

/-- `reconcileNormal`, the case `missing`. The provider ID is what tells a
machine that is to be created from one that was lost. It is set in the object
here, and stored by the deferred patch, which may fail after the machine was
created. -/
def reconcileMissing (scope : MachineScope) (m : LibvirtMachine) :
    ControllerM (LibvirtMachine × Outcome) := do
  if m.spec.providerID.isSome then return reconcileLostDomain scope m
  let m := ((m.withReady false).withProvisioned false).withCondition .domainProvisioningReady .no
    .domainProvisioningInProgress "Domain provisioning in progress"
  match scope.machine.dataSecretName with
  | none => return (m.withReady false, { requeueAfter := some 60 })
  | some dataSecretName =>
    match ← getCloudInitData scope dataSecretName with
    | .error err =>
      return (m, { err := some (.wrap "error during getting cloud init user data" err) })
    | .ok cloudInitUserData =>
      let cfg := { scope.machineConfig with userData := cloudInitUserData }
      match (← provider (.createMachine cfg) : Except GoError Unit) with
      | .error err =>
        return (m.withCondition .domainProvisioningReady .no .domainProvisioningFailed
          ("Failed to create Domain: " ++ err.message), { err := some err })
      | .ok () =>
        let m := (setProviderID m).withCondition .machineCreated .yes .machineCreated ""
        return ((m.withReady true).withProvisioned true, {})

/-- `reconcileNormal`, the case `stopped`. The domain is started, whoever
stopped it, and the object is looked at again for the state. -/
def reconcileStopped (scope : MachineScope) (m : LibvirtMachine) :
    ControllerM (LibvirtMachine × Outcome) := do
  let m := (m.withReady false).withCondition .domainRunning .no .domainNotRunning
    "Domain is stopped, starting it"
  match (← provider (.startMachine scope.machineConfig) : Except GoError Unit) with
  | .error err =>
    return (m.withCondition .domainRunning .no .domainNotRunning
      ("Failed start Domain: " ++ err.message), { err := some err })
  | .ok () =>
    return (((setProviderID m).withReady true).withProvisioned true,
      { requeueAfter := some requeueTimeShort })

/-- `reconcileNormal`, the case `running`. A machine is taken over as it is
found: it becomes ready and provisioned without having been created here. -/
def reconcileRunning (scope : MachineScope) (m : LibvirtMachine) :
    ControllerM (LibvirtMachine × Outcome) :=
  let m := m.withCondition .domainRunning .yes .domainRunning "Domain is running"
  observeMachineAddress scope (((setProviderID m).withReady true).withProvisioned true)

/-- **`reconcileNormal`.** The finalizer is added in a reconcile of its own,
so that it is stored before anything is made on a host. From there on the
state of the domain decides, and an error in asking for it ends the reconcile. -/
def reconcileNormal (scope : MachineScope) : ControllerM (LibvirtMachine × Outcome) := do
  let m := scope.libvirtMachine
  if isPaused scope.cluster m then
    return ((m.withReady false).withProvisioned false, {})
  if libvirtMachineFinalizer ∉ m.finalizers ∧ m.deletionTimestamp = false then
    return ((m.addFinalizer.withReady false).withProvisioned false, {})
  if scope.cluster.infrastructureProvisioned ≠ some true then
    return (((m.withReady false).withProvisioned false).withCondition .infrastructureReady .no
      .infrastructureProvisioningInProgress "Waiting for cluster infrastructure to be ready",
      { requeueAfter := some requeueTimeShort })
  let m := m.withCondition .infrastructureReady .yes .infrastructureReady
    "Cluster infrastructure is ready"
  match (← provider (.getMachineState scope.machineConfig) : Except GoError DomainState) with
  | .error err => return (m, { err := some err })
  | .ok .notFound => reconcileMissing scope m
  | .ok .stopped => reconcileStopped scope m
  | .ok .running => reconcileRunning scope m
  | .ok .unknown =>
    return ((m.withReady false).withProvisioned false, { requeueAfter := some requeueTimeShort })

/-- **`reconcileDelete`.** The finalizer goes once `DeleteMachine` has
returned nil, and not before. An object without the finalizer gets an error,
though its machine was deleted. -/
def reconcileDelete (scope : MachineScope) : ControllerM (LibvirtMachine × Outcome) := do
  let m := scope.libvirtMachine
  match (← provider (.deleteMachine scope.machineConfig) : Except GoError Unit) with
  | .error err => return (m, { err := some err })
  | .ok () =>
    if libvirtMachineFinalizer ∈ m.finalizers then return (m.removeFinalizer, {})
    else return (m, { err := some (.text ("unable to remove finalizer "
      ++ libvirtMachineFinalizer ++ " from LibvirtMachine  " ++ scope.machine.nmspace ++ "/"
      ++ scope.machine.name)) })

/-! ## The deferred patch -/

/-- `kerrors.NewAggregate`: no error, the only one, or a list of the texts
that differ. -/
def newAggregate : List GoError → Option GoError
  | [] => none
  | [err] => some err
  | errs =>
    match (errs.map GoError.message).eraseDups with
    | [msg] => some (.text msg)
    | msgs => some (.text ("[" ++ ", ".intercalate msgs ++ "]"))

/-- A request, if there is something to ask for. -/
def patchIf (differs : Bool) (request : ControllerM (Except ApiError Unit)) :
    ControllerM (Except ApiError Unit) :=
  if differs then request else return .ok ()

/-- `Helper.Patch`: the conditions, then metadata and spec, then the status.
These are three requests, and each may fail with the others carried out. A
status that cannot be patched because the object is gone with its last
finalizer is no error. -/
def helperPatch (before after : LibvirtMachine) : ControllerM (Option GoError) := do
  let conditions ← patchIf (after.status.conditions ≠ before.status.conditions)
    (api (.patchStatusConditions before after))
  let object ← patchIf
    (after.finalizers ≠ before.finalizers || after.spec.providerID ≠ before.spec.providerID)
    (api (.patch before after))
  let status ← patchIf (after.status ≠ before.status) (api (.patchStatus before after))
  let status := match status with
    | .error .notFound =>
      if after.deletionTimestamp && after.finalizers.isEmpty then .ok () else status
    | _ => status
  return newAggregate ([conditions, object, status].filterMap fun
    | .error err => some err.toGo
    | .ok () => none)

/-- An object that comes back as it was is not patched. -/
theorem helperPatch_self (m : LibvirtMachine) : helperPatch m m = .done none := by
  simp [helperPatch, patchIf, newAggregate]

/-! ## One call of Reconcile -/

/-- `Reconcile`, from the object read to the object to be patched. -/
def reconcileMachine (m : LibvirtMachine) : ControllerM (LibvirtMachine × Outcome) := do
  match (← api (.getOwnerMachine m) : Except GoError (Option Machine)) with
  | .error err => return (m, { err := some err })
  | .ok none => return (m, { requeueAfter := some requeueTimeShort })
  | .ok (some ownerMachine) =>
  match (← api (.getClusterFromMetadata ownerMachine) : Except GoError (Option Cluster)) with
  | .error err => return (m, { err := some err })
  | .ok none => return (m, {})
  | .ok (some ownerCluster) =>
  let libvirtClusterKey := ⟨ownerCluster.nmspace, ownerCluster.infrastructureRefName⟩
  match (← api (.getLibvirtCluster libvirtClusterKey) : Except GoError LibvirtCluster) with
  | .error err => return (m, { err := some err })
  | .ok libvirtCluster =>
  match (← api (.loadCredentials libvirtCluster) : Except GoError (Option Credentials)) with
  | .error err => return (m, { err := some err })
  | .ok creds =>
  let scope : MachineScope :=
    { cluster := ownerCluster
      machine := ownerMachine
      libvirtCluster := libvirtCluster
      libvirtMachine := m
      machineConfig := { newMachineConfig m libvirtCluster with credentials := creds } }
  if m.deletionTimestamp then reconcileDelete scope else reconcileNormal scope

/-- **`LibvirtMachineReconciler.Reconcile`.** The error of the deferred patch
is returned when there is no other. -/
def reconcile : ControllerM Outcome := do
  match (← api .getLibvirtMachine : Except ApiError LibvirtMachine) with
  | .error .notFound => return {}
  | .error err => return { err := some err.toGo }
  | .ok m =>
  match (← api .newHelper : Except GoError Unit) with
  | .error err => return { err := some err }
  | .ok () =>
    let (after, outcome) ← reconcileMachine m
    let patchErr ← helperPatch m after
    return { outcome with err := outcome.err <|> patchErr }

/-! ## What a reconcile can do -/

/-- The configuration an operation is called with. -/
def MachineOp.cfg : MachineOp → MachineConfig
  | .getMachineState cfg | .createMachine cfg | .startMachine cfg | .deleteMachine cfg
  | .getMachineAddress cfg => cfg

/-- The name of the domain is a matter of the object's name. -/
theorem domainName_congr {m m' : LibvirtMachine} (hname : m'.name = m.name)
    (hnmspace : m'.nmspace = m.nmspace) : domainName m' = domainName m := by
  unfold domainName
  rw [hname, hnmspace]

/-- Where a machine has its resources. It comes from the cluster's spec, which
can change while the machine is there. -/
structure Place where
  uri : String
  domainPool : String
  network : String
  deriving DecidableEq, Repr

/-- The place a configuration names. -/
def MachineConfig.place (cfg : MachineConfig) : Place := ⟨cfg.uri, cfg.domainPool, cfg.network⟩

/-- The place of the machines of a cluster. -/
def LibvirtClusterSpec.place (spec : LibvirtClusterSpec) : Place :=
  ⟨spec.uri, spec.domainPool, spec.network⟩

/-- A configuration of a machine: the one the controller computes, with some
credentials and user data. Those two are read from elsewhere, and none of the
results depends on them. -/
def MachineConfig.IsFor (cfg : MachineConfig) (m : LibvirtMachine) (c : LibvirtCluster) : Prop :=
  cfg = { newMachineConfig m c with credentials := cfg.credentials, userData := cfg.userData }

theorem isFor_uri {cfg : MachineConfig} {m : LibvirtMachine} {c : LibvirtCluster}
    (h : cfg.IsFor m c) : cfg.uri = c.spec.uri := by
  unfold MachineConfig.IsFor at h
  rw [h]
  rfl

theorem isFor_domainName {cfg : MachineConfig} {m : LibvirtMachine} {c : LibvirtCluster}
    (h : cfg.IsFor m c) : cfg.domainName = domainName m := by
  unfold MachineConfig.IsFor at h
  rw [h]
  rfl

theorem isFor_domainUUID {cfg : MachineConfig} {m : LibvirtMachine} {c : LibvirtCluster}
    (h : cfg.IsFor m c) : cfg.domainUUID = domainUUID m := by
  unfold MachineConfig.IsFor at h
  rw [h]
  rfl

theorem MachineConfig.IsFor.place_eq {cfg : MachineConfig} {m : LibvirtMachine}
    {c : LibvirtCluster} (h : cfg.IsFor m c) : cfg.place = c.spec.place := by
  unfold MachineConfig.IsFor at h
  rw [h]
  rfl

theorem MachineConfig.IsFor.withUserData {cfg : MachineConfig} {m : LibvirtMachine}
    {c : LibvirtCluster} (h : cfg.IsFor m c) (userData : Bytes) :
    { cfg with userData := userData }.IsFor m c := by
  unfold MachineConfig.IsFor at h ⊢
  exact congrArg (fun cfg : MachineConfig => { cfg with userData := userData }) h

/-- What a reconcile has seen: the objects it read, the state of the domain,
and which operations succeeded. A reconcile remembers nothing else, and
nothing of it is left for the next one. -/
structure Seen where
  machine : Option LibvirtMachine := none
  libvirtCluster : Option LibvirtCluster := none
  state : Option DomainState := none
  created : Bool := false
  started : Bool := false
  deleted : Bool := false

namespace Seen

variable (q : Seen)

/-- What is seen after a call. With the object everything is read anew. -/
def next : (o : ControllerSig.Op) → ControllerSig.Ans o → Seen
  | .api .getLibvirtMachine, r => { machine := Except.toOption r }
  | .api (.getLibvirtCluster _), r => { q with libvirtCluster := Except.toOption r }
  | .provider (.getMachineState _), r => { q with state := Except.toOption r }
  | .provider (.createMachine _), r => { q with created := q.created || Except.isOk r }
  | .provider (.startMachine _), r => { q with started := q.started || Except.isOk r }
  | .provider (.deleteMachine _), r => { q with deleted := q.deleted || Except.isOk r }
  | _, _ => q

/-- The domain was created, started or found running. -/
def Up : Prop := q.created ∨ q.started ∨ q.state = some .running

/-- **What a reconcile may change in the object**: it adds its finalizer
unless the object is being deleted, and removes it once the machine is
deleted; it sets a provider ID where there is none, and reports the machine
ready, once the domain is up. -/
structure Change (before after : LibvirtMachine) : Prop where
  finalizers : after.finalizers = before.finalizers
    ∨ after.finalizers = before.finalizers ++ [libvirtMachineFinalizer]
      ∧ libvirtMachineFinalizer ∉ before.finalizers ∧ before.deletionTimestamp = false
    ∨ after.finalizers = before.finalizers.filter (· ≠ libvirtMachineFinalizer)
      ∧ q.deleted = true
  providerID : after.spec.providerID = before.spec.providerID
    ∨ before.spec.providerID = none
      ∧ after.spec.providerID = some (providerIDPrefix ++ domainUUID before) ∧ q.Up
  ready : after.status.ready = before.status.ready ∨ after.status.ready = false ∨ q.Up
  provisioned : after.status.provisioned = before.status.provisioned
    ∨ after.status.provisioned = false ∨ q.Up

/-- Which operations are in place, for the object that was read. Creating
needs all there is: the finalizer read, no provider ID, and the answer that
there is no domain. -/
def Permits (m : LibvirtMachine) : MachineOp → Prop
  | .createMachine _ => m.deletionTimestamp = false ∧ libvirtMachineFinalizer ∈ m.finalizers
    ∧ m.spec.providerID = none ∧ q.state = some .notFound
  | .startMachine _ => m.deletionTimestamp = false ∧ libvirtMachineFinalizer ∈ m.finalizers
    ∧ q.state = some .stopped
  | .deleteMachine _ => m.deletionTimestamp = true ∧ q.deleted = false
  | _ => m.deletionTimestamp = false

/-- Which calls are allowed. The object is read once. -/
def Allows : ControllerSig.Op → Prop
  | .api .getLibvirtMachine => q.machine = none
  | .api (.patchStatusConditions before after) => q.machine = some before ∧ q.Change before after
  | .api (.patch before after) => q.machine = some before ∧ q.Change before after
  | .api (.patchStatus before after) => q.machine = some before ∧ q.Change before after
  | .api _ => True
  | .provider o => ∃ m c, q.machine = some m ∧ q.libvirtCluster = some c ∧ o.cfg.IsFor m c
    ∧ q.Permits m o

/-- `CreateMachine` is called only after it was answered that there is no
domain. -/
theorem Allows.state_of_create {q : Seen} {cfg : MachineConfig}
    (h : q.Allows (.provider (.createMachine cfg))) : q.state = some .notFound := by
  obtain ⟨_, _, _, _, _, hpermits⟩ := h
  exact hpermits.2.2.2

end Seen

/-- **The monitor of a reconcile.** The results on the finalizer, on identity
and on ownership take from the program that it keeps to this, and nothing
else. -/
def reconcileMonitor : Monitor ControllerSig Seen where
  next := Seen.next
  allows := Seen.Allows

/-! ### The object along the branches -/

section Object

variable (m : LibvirtMachine) (b : Bool) (l : List String) (t : ConditionType)
  (cs : ConditionStatus) (cr : ConditionReason) (msg : String)

@[simp] theorem withReady_finalizers : (m.withReady b).finalizers = m.finalizers := rfl
@[simp] theorem withReady_spec : (m.withReady b).spec = m.spec := rfl
@[simp] theorem withReady_ready : (m.withReady b).status.ready = b := rfl
@[simp] theorem withReady_provisioned :
    (m.withReady b).status.provisioned = m.status.provisioned := rfl
@[simp] theorem withProvisioned_finalizers :
    (m.withProvisioned b).finalizers = m.finalizers := rfl
@[simp] theorem withProvisioned_spec : (m.withProvisioned b).spec = m.spec := rfl
@[simp] theorem withProvisioned_ready :
    (m.withProvisioned b).status.ready = m.status.ready := rfl
@[simp] theorem withProvisioned_provisioned :
    (m.withProvisioned b).status.provisioned = b := rfl
@[simp] theorem withAddresses_finalizers : (m.withAddresses l).finalizers = m.finalizers := rfl
@[simp] theorem withAddresses_spec : (m.withAddresses l).spec = m.spec := rfl
@[simp] theorem withAddresses_ready : (m.withAddresses l).status.ready = m.status.ready := rfl
@[simp] theorem withAddresses_provisioned :
    (m.withAddresses l).status.provisioned = m.status.provisioned := rfl
@[simp] theorem withCondition_finalizers :
    (m.withCondition t cs cr msg).finalizers = m.finalizers := rfl
@[simp] theorem withCondition_spec : (m.withCondition t cs cr msg).spec = m.spec := rfl
@[simp] theorem withCondition_ready :
    (m.withCondition t cs cr msg).status.ready = m.status.ready := rfl
@[simp] theorem withCondition_provisioned :
    (m.withCondition t cs cr msg).status.provisioned = m.status.provisioned := rfl

@[simp] theorem setProviderID_withReady :
    setProviderID (m.withReady b) = (setProviderID m).withReady b := by
  unfold setProviderID
  cases h : m.spec.providerID <;> simp [LibvirtMachine.withReady, domainUUID, h]

@[simp] theorem setProviderID_withProvisioned :
    setProviderID (m.withProvisioned b) = (setProviderID m).withProvisioned b := by
  unfold setProviderID
  cases h : m.spec.providerID <;> simp [LibvirtMachine.withProvisioned, domainUUID, h]

@[simp] theorem setProviderID_withCondition :
    setProviderID (m.withCondition t cs cr msg)
      = (setProviderID m).withCondition t cs cr msg := by
  unfold setProviderID
  cases h : m.spec.providerID <;> simp [LibvirtMachine.withCondition, domainUUID, h]

@[simp] theorem setProviderID_finalizers : (setProviderID m).finalizers = m.finalizers := by
  unfold setProviderID
  split <;> rfl

/-- The provider ID is set once, to the domain UUID. -/
theorem setProviderID_cases :
    (setProviderID m).spec.providerID = m.spec.providerID
    ∨ m.spec.providerID = none
      ∧ (setProviderID m).spec.providerID = some (providerIDPrefix ++ domainUUID m) := by
  unfold setProviderID
  split
  · exact Or.inl rfl
  · exact Or.inr ⟨‹_›, rfl⟩

end Object

namespace Seen

variable {q : Seen} {before after : LibvirtMachine}

/-- Nothing but the status is changed, and the machine is not reported ready. -/
theorem Change.of_status (hf : after.finalizers = before.finalizers)
    (hs : after.spec = before.spec)
    (hr : after.status.ready = before.status.ready ∨ after.status.ready = false)
    (hp : after.status.provisioned = before.status.provisioned
      ∨ after.status.provisioned = false) : q.Change before after where
  finalizers := Or.inl hf
  providerID := Or.inl (congrArg _ hs)
  ready := hr.imp_right Or.inl
  provisioned := hp.imp_right Or.inl

/-- The machine is reported ready and has its provider ID. -/
theorem Change.of_up (hq : q.Up) (hf : after.finalizers = before.finalizers)
    (hs : after.spec = (setProviderID before).spec) : q.Change before after where
  finalizers := Or.inl hf
  providerID := by
    rw [hs]
    exact (setProviderID_cases before).imp_right fun h => ⟨h.1, h.2, hq⟩
  ready := Or.inr (Or.inr hq)
  provisioned := Or.inr (Or.inr hq)

theorem Change.refl : q.Change before before :=
  .of_status rfl rfl (Or.inl rfl) (Or.inl rfl)

end Seen

/-- An allowed request that changes the object is a patch, made of the object
that was read and an allowed change of it. -/
theorem Seen.Allows.edit {q : Seen} {o : ApiOp} {f : LibvirtMachine → LibvirtMachine}
    (h : q.Allows (.api o)) (hf : o.edit = some f) :
    ∃ before after, q.machine = some before ∧ q.Change before after
      ∧ (f = before.merge after ∨ f = before.mergeConditions after
        ∨ f = before.mergeStatus after) := by
  cases o with
  | patchStatusConditions before after =>
    exact ⟨before, after, h.1, h.2, Or.inr (Or.inl (Option.some.inj hf).symm)⟩
  | patch before after => exact ⟨before, after, h.1, h.2, Or.inl (Option.some.inj hf).symm⟩
  | patchStatus before after =>
    exact ⟨before, after, h.1, h.2, Or.inr (Or.inr (Option.some.inj hf).symm)⟩
  | _ => cases hf

/-- An allowed patch leaves the finalizer where it is until the machine is
deleted. -/
theorem Seen.Allows.finalizer_mem {q : Seen} {o : ApiOp} {f : LibvirtMachine → LibvirtMachine}
    (h : q.Allows (.api o)) (hf : o.edit = some f) (hdel : q.deleted = false)
    {m : LibvirtMachine} (hm : libvirtMachineFinalizer ∈ m.finalizers) :
    libvirtMachineFinalizer ∈ (f m).finalizers := by
  obtain ⟨before, after, -, hchange, rfl | rfl | rfl⟩ := h.edit hf
  · show libvirtMachineFinalizer ∈ if _ then _ else _
    split
    · exact hm
    rcases hchange.finalizers with heq | ⟨heq, -⟩ | ⟨-, hdel'⟩
    · contradiction
    · rw [heq]
      simp
    · rw [hdel] at hdel'
      cases hdel'
  · exact hm
  · exact hm

/-- What an allowed request leaves guarded, until the machine is deleted. -/
theorem ApiState.Guarded.request {a a' : ApiState} (h : a.Guarded) {q : Seen} {o : ApiOp}
    (ho : q.Allows (.api o)) (hdel : q.deleted = false) {r : o.Result} (hs : apiSem a o r a') :
    a'.Guarded := by
  rcases apiSem_cases hs with rfl | ⟨f, stored, hf, hstored, -, rfl⟩
  · exact h
  · obtain ⟨m, hm, hfin⟩ := h
    cases hstored.symm.trans hm
    have hmem := ho.finalizer_mem hf hdel hfin
    exact ⟨f stored, LibvirtMachine.stores_of_mem hmem, hmem⟩

/-! ## A machine to run with -/

/-- A cluster of the host in `nodeConfig`. -/
def sampleCluster : LibvirtCluster where
  name := "prod"
  nmspace := "default"
  spec := ⟨"qemu:///system", "base", "vms", "default", none⟩

/-- A machine of it, as it is created. -/
def sampleMachine : LibvirtMachine where
  name := "node-1"
  nmspace := "default"
  uid := "5d3b6c0e"
  finalizers := []
  deletionTimestamp := false
  pausedAnnotation := false
  spec := ⟨none, 2, 2048, 20, "ubuntu.qcow2"⟩
  status := ⟨false, [], [], false⟩

/-- What the API server answers when all goes well. -/
def sampleAnswers : ApiChoice where
  ownerMachine := some ⟨"node-1", "default", some "node-1-bootstrap"⟩
  ownerCluster := some ⟨"prod", "default", "prod", none, some true⟩
  secretValue := some [35, 99]

end LibvirtProvider

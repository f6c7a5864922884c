import LibvirtProvider.MachineController

/-!
# The exits of a reconcile

A reconcile of a machine leaves its program in one of some fifteen places, and
each of them writes something else to the object. `Course.Exit` is the list of
them: for what was read and answered on the way (`Course`), the object as it
goes to the patch and the error that is returned. The program keeps to it
(`reconcile_course`), and everything that is known about reconciles is derived
from that: what they may change at all (`reconcile_obeys`), and what becomes of
single fields of the status (`Course.Exit.report_eq`).
-/

namespace LibvirtProvider

open Interaction

/-! ## The course of a reconcile -/

/-- **The course of a reconcile**: what it has seen, the cluster it read,
whether it has everything it needs to turn to the object, and whether it has
asked the provider to change something. The exit a reconcile takes depends on
this and on the object, and on nothing else. -/
structure Course extends Seen where
  cluster : Option Cluster := none
  loaded : Bool := false
  asked : Bool := false

namespace Course

variable (q : Course)

/-- The cluster after a call. -/
def nextCluster : (o : ControllerSig.Op) → ControllerSig.Ans o → Option Cluster
  | .api .getLibvirtMachine, _ => none
  | .api (.getClusterFromMetadata _), r => (Except.toOption r).join
  | _, _ => q.cluster

/-- Whether the last thing needed is there, after a call. -/
def nextLoaded : (o : ControllerSig.Op) → ControllerSig.Ans o → Bool
  | .api .getLibvirtMachine, _ => false
  | .api (.loadCredentials _), r => Except.isOk r
  | _, _ => q.loaded

/-- Whether the provider was asked to change something, after a call. -/
def nextAsked : ControllerSig.Op → Bool
  | .api .getLibvirtMachine => false
  | .provider (.createMachine _) => true
  | .provider (.startMachine _) => true
  | .provider (.deleteMachine _) => true
  | _ => q.asked

/-- The course after a call. -/
def next (o : ControllerSig.Op) (r : ControllerSig.Ans o) : Course where
  toSeen := q.toSeen.next o r
  cluster := q.nextCluster o r
  loaded := q.nextLoaded o r
  asked := q.nextAsked o

/-- Nothing is known of the domain, and nothing was asked for. -/
def Idle : Prop := q.state = none ∧ q.asked = false

/-- The reconcile has got to the object, which is not being deleted, not
paused and has the finalizer, and the infrastructure of the cluster is
there. -/
structure Open (m : LibvirtMachine) (cluster : Cluster) : Prop where
  loaded : q.loaded = true
  read : q.cluster = some cluster
  deletion : m.deletionTimestamp = false
  paused : isPaused cluster m = false
  finalizer : libvirtMachineFinalizer ∈ m.finalizers
  infrastructure : cluster.infrastructureProvisioned = some true

end Course

/-- The object with the condition that the infrastructure is there. -/
def LibvirtMachine.withInfrastructure (m : LibvirtMachine) : LibvirtMachine :=
  m.withCondition .infrastructureReady .yes .infrastructureReady "Cluster infrastructure is ready"

/-- The object while its domain is being created. -/
def LibvirtMachine.withProvisioning (m : LibvirtMachine) : LibvirtMachine :=
  ((m.withReady false).withProvisioned false).withCondition .domainProvisioningReady .no
    .domainProvisioningInProgress "Domain provisioning in progress"

/-- **The exits of a reconcile** of the object `m`: the object as it goes to
the patch, and the error. -/
inductive Course.Exit (q : Course) (m : LibvirtMachine) :
    LibvirtMachine → Option GoError → Prop where
  /-- Something that is needed is not there. -/
  | unread {err : Option GoError} (hloaded : q.loaded = false) (hidle : q.Idle) :
      Exit q m m err
  | paused {cluster : Cluster} (hloaded : q.loaded = true) (hcluster : q.cluster = some cluster)
      (hdel : m.deletionTimestamp = false) (hpaused : isPaused cluster m = true)
      (hidle : q.Idle) :
      Exit q m ((m.withReady false).withProvisioned false) none
  /-- The finalizer is added. -/
  | adopted {cluster : Cluster} (hloaded : q.loaded = true) (hcluster : q.cluster = some cluster)
      (hdel : m.deletionTimestamp = false) (hpaused : isPaused cluster m = false)
      (hfin : libvirtMachineFinalizer ∉ m.finalizers) (hidle : q.Idle) :
      Exit q m ((m.addFinalizer.withReady false).withProvisioned false) none
  /-- The infrastructure of the cluster is not there. -/
  | waiting {cluster : Cluster} (hloaded : q.loaded = true) (hcluster : q.cluster = some cluster)
      (hdel : m.deletionTimestamp = false) (hpaused : isPaused cluster m = false)
      (hinfra : cluster.infrastructureProvisioned ≠ some true) (hidle : q.Idle)
      (reason : ConditionReason) (msg : String) :
      Exit q m (((m.withReady false).withProvisioned false).withCondition .infrastructureReady .no
        reason msg) none
  /-- The state of the domain is not to be had. -/
  | stateless {cluster : Cluster} (hopen : q.Open m cluster) (hstate : q.state = none)
      (err : GoError) : Exit q m m.withInfrastructure (some err)
  /-- The domain is gone. -/
  | lost {cluster : Cluster} (hopen : q.Open m cluster) (hstate : q.state = some .notFound)
      (hid : m.spec.providerID.isSome) (hcreated : q.created = false) (msg : String) :
      Exit q m (((m.withInfrastructure.withReady false).withAddresses []).withCondition
        .domainRunning .no .domainNotFound msg) none
  /-- There are no bootstrap data yet. -/
  | dataless {cluster : Cluster} (hopen : q.Open m cluster) (hstate : q.state = some .notFound)
      (hid : m.spec.providerID = none) (hcreated : q.created = false) :
      Exit q m (m.withInfrastructure.withProvisioning.withReady false) none
  /-- The bootstrap data could not be read. -/
  | unreadable {cluster : Cluster} (hopen : q.Open m cluster) (hstate : q.state = some .notFound)
      (hid : m.spec.providerID = none) (hcreated : q.created = false) (err : GoError) :
      Exit q m m.withInfrastructure.withProvisioning (some err)
  /-- The domain could not be created. -/
  | uncreated {cluster : Cluster} (hopen : q.Open m cluster) (hstate : q.state = some .notFound)
      (hid : m.spec.providerID = none) (hcreated : q.created = false) (msg : String)
      (err : GoError) :
      Exit q m (m.withInfrastructure.withProvisioning.withCondition .domainProvisioningReady .no
        .domainProvisioningFailed msg) (some err)
  | created {cluster : Cluster} (hopen : q.Open m cluster) (hstate : q.state = some .notFound)
      (hid : m.spec.providerID = none) (hcreated : q.created = true) :
      Exit q m ((((setProviderID m.withInfrastructure.withProvisioning).withCondition
        .machineCreated .yes .machineCreated "").withReady true).withProvisioned true) none
  /-- The domain could not be started. -/
  | unstarted {cluster : Cluster} (hopen : q.Open m cluster) (hstate : q.state = some .stopped)
      (hstarted : q.started = false) (msg msg' : String) (err : GoError) :
      Exit q m (((m.withInfrastructure.withReady false).withCondition .domainRunning .no
        .domainNotRunning msg).withCondition .domainRunning .no .domainNotRunning msg') (some err)
  | started {cluster : Cluster} (hopen : q.Open m cluster) (hstate : q.state = some .stopped)
      (hstarted : q.started = true) (msg : String) :
      Exit q m (((setProviderID ((m.withInfrastructure.withReady false).withCondition
        .domainRunning .no .domainNotRunning msg)).withReady true).withProvisioned true) none
  /-- The domain is running, its address may be known. -/
  | running {cluster : Cluster} {after : LibvirtMachine} (hopen : q.Open m cluster)
      (hstate : q.state = some .running) (msg : String)
      (hafter : after = ((setProviderID (m.withInfrastructure.withCondition .domainRunning .yes
        .domainRunning msg)).withReady true).withProvisioned true
        ∨ ∃ l, after = (((setProviderID (m.withInfrastructure.withCondition .domainRunning .yes
          .domainRunning msg)).withReady true).withProvisioned true).withAddresses l) :
      Exit q m after none
  /-- The domain is in a state that says nothing. -/
  | unknown {cluster : Cluster} (hopen : q.Open m cluster) (hstate : q.state = some .unknown) :
      Exit q m ((m.withInfrastructure.withReady false).withProvisioned false) none
  /-- The machine could not be deleted, or there is no finalizer. -/
  | undeleted {cluster : Cluster} (hloaded : q.loaded = true) (hcluster : q.cluster = some cluster)
      (hdel : m.deletionTimestamp = true) (hasked : q.asked = true) (hstate : q.state = none)
      (err : GoError) : Exit q m m (some err)
  | deleted {cluster : Cluster} (hloaded : q.loaded = true) (hcluster : q.cluster = some cluster)
      (hdel : m.deletionTimestamp = true) (hfin : libvirtMachineFinalizer ∈ m.finalizers)
      (hdeleted : q.deleted = true) (hasked : q.asked = true) (hstate : q.state = none) :
      Exit q m m.removeFinalizer none

/-! ## What the exits write -/

/-- What is looked at in the status of a machine: the two flags and the two
conditions that speak of the domain. -/
structure Report where
  ready : Bool
  provisioned : Bool
  running : Option ConditionStatus
  provisioning : Option ConditionStatus
  deriving DecidableEq

/-- The report of a machine. -/
def LibvirtMachine.report (m : LibvirtMachine) : Report where
  ready := m.status.ready
  provisioned := m.status.provisioned
  running := conditionStatus m.status.conditions .domainRunning
  provisioning := conditionStatus m.status.conditions .domainProvisioningReady

section Report

variable (m : LibvirtMachine) (b : Bool) (l : List String) (t : ConditionType)
  (cs : ConditionStatus) (cr : ConditionReason) (msg : String)

@[simp] theorem report_withReady : (m.withReady b).report = { m.report with ready := b } := rfl

@[simp] theorem report_withProvisioned :
    (m.withProvisioned b).report = { m.report with provisioned := b } := rfl

@[simp] theorem report_withAddresses : (m.withAddresses l).report = m.report := rfl

@[simp] theorem report_addFinalizer : m.addFinalizer.report = m.report := rfl

@[simp] theorem report_removeFinalizer : m.removeFinalizer.report = m.report := rfl

@[simp] theorem report_setProviderID : (setProviderID m).report = m.report := by
  unfold setProviderID
  split <;> rfl

@[simp] theorem report_withCondition :
    (m.withCondition t cs cr msg).report =
      { m.report with
        running := if t = .domainRunning then some cs else m.report.running
        provisioning := if t = .domainProvisioningReady then some cs
          else m.report.provisioning } := by
  simp [LibvirtMachine.report, LibvirtMachine.withCondition]

@[simp] theorem report_withInfrastructure : m.withInfrastructure.report = m.report := by
  simp [LibvirtMachine.withInfrastructure]

@[simp] theorem report_withProvisioning :
    m.withProvisioning.report =
      { m.report with ready := false, provisioned := false, provisioning := some .no } := by
  simp [LibvirtMachine.withProvisioning]

end Report

section Change

variable (m : LibvirtMachine)

@[simp] theorem withInfrastructure_finalizers :
    m.withInfrastructure.finalizers = m.finalizers := rfl
@[simp] theorem withInfrastructure_spec : m.withInfrastructure.spec = m.spec := rfl
@[simp] theorem withInfrastructure_ready :
    m.withInfrastructure.status.ready = m.status.ready := rfl
@[simp] theorem withInfrastructure_provisioned :
    m.withInfrastructure.status.provisioned = m.status.provisioned := rfl
@[simp] theorem withProvisioning_finalizers : m.withProvisioning.finalizers = m.finalizers := rfl
@[simp] theorem withProvisioning_spec : m.withProvisioning.spec = m.spec := rfl
@[simp] theorem withProvisioning_ready : m.withProvisioning.status.ready = false := rfl
@[simp] theorem withProvisioning_provisioned :
    m.withProvisioning.status.provisioned = false := rfl

@[simp] theorem setProviderID_withInfrastructure :
    setProviderID m.withInfrastructure = (setProviderID m).withInfrastructure :=
  setProviderID_withCondition _ _ _ _ _

@[simp] theorem setProviderID_withProvisioning :
    setProviderID m.withProvisioning = (setProviderID m).withProvisioning := by
  simp [LibvirtMachine.withProvisioning]

end Change

/-- **What the exits write is what a reconcile may change.** So the weaker
monitor follows from the list of the exits, and the program is gone through
once. -/
theorem Course.Exit.change {q : Course} {m after : LibvirtMachine} {err : Option GoError}
    (h : q.Exit m after err) : q.toSeen.Change m after := by
  cases h with
  | unread | undeleted => exact .refl
  | adopted _ _ hdel _ hfin =>
    exact ⟨Or.inr (Or.inl ⟨rfl, hfin, hdel⟩), Or.inl rfl, by simp, by simp⟩
  | deleted _ _ _ _ hdeleted =>
    exact ⟨Or.inr (Or.inr ⟨rfl, hdeleted⟩), Or.inl rfl, Or.inl rfl, Or.inl rfl⟩
  | created _ _ _ hcreated => exact .of_up (Or.inl hcreated) (by simp) (by simp)
  | started _ _ hstarted => exact .of_up (Or.inr (Or.inl hstarted)) (by simp) (by simp)
  | running _ hstate _ hafter =>
    have hup : q.toSeen.Up := Or.inr (Or.inr hstate)
    rcases hafter with rfl | ⟨l, rfl⟩
    · exact .of_up hup (by simp) (by simp)
    · exact .of_up hup (by simp) (by simp)
  | _ => exact .of_status (by simp) (by simp) (by simp) (by simp)

/-! ## The program keeps to its exits -/

namespace Course

variable (q : Course)

/-- Which operations are in place, for the objects that were read. -/
def Grants (m : LibvirtMachine) (cluster : Cluster) : MachineOp → Prop
  | .createMachine _ => q.Open m cluster ∧ m.spec.providerID = none ∧ q.state = some .notFound
    ∧ q.created = false ∧ q.asked = false
  | .startMachine _ => q.Open m cluster ∧ q.state = some .stopped ∧ q.started = false
  | .deleteMachine _ => m.deletionTimestamp = true ∧ q.deleted = false
  | .getMachineState _ => q.Open m cluster ∧ q.state = none
  | .getMachineAddress _ => q.Open m cluster ∧ q.state = some .running

/-- An object goes to the patch as one of the exits leaves it, if it was
changed. All three requests of the patch are made with the same two objects. -/
def Patches (before after : LibvirtMachine) : Prop :=
  q.machine = some before ∧ after ≠ before ∧ ∃ err, q.Exit before after err

/-- Which calls are allowed. The objects are read once. -/
def Allows : ControllerSig.Op → Prop
  | .api .getLibvirtMachine => q.machine = none
  | .api (.getClusterFromMetadata _) => q.machine.isSome ∧ q.cluster = none ∧ q.loaded = false
  | .api (.patchStatusConditions before after) => q.Patches before after
  | .api (.patch before after) => q.Patches before after
  | .api (.patchStatus before after) => q.Patches before after
  | .api (.loadCredentials _) => q.machine.isSome ∧ q.loaded = false
  | .api _ => q.machine.isSome
  | .provider o => ∃ m cluster c, q.machine = some m ∧ q.cluster = some cluster
    ∧ q.loaded = true ∧ q.libvirtCluster = some c ∧ o.cfg.IsFor m c ∧ q.Grants m cluster o

end Course

/-- **The monitor of the course of a reconcile.** It allows what the program
does and little more, so that what is true of every program that keeps to it
is what the source says. -/
def courseMonitor : Monitor ControllerSig Course where
  next := Course.next
  allows := Course.Allows

/-- What is allowed here is allowed by `reconcileMonitor`. -/
theorem Course.Allows.seen {q : Course} {o : ControllerSig.Op} (h : q.Allows o) :
    q.toSeen.Allows o := by
  match o with
  | .api o =>
    cases o with
    | patchStatusConditions before after => exact ⟨h.1, h.2.2.choose_spec.change⟩
    | patch before after => exact ⟨h.1, h.2.2.choose_spec.change⟩
    | patchStatus before after => exact ⟨h.1, h.2.2.choose_spec.change⟩
    | getLibvirtMachine => exact h
    | _ => trivial
  | .provider o =>
    obtain ⟨m, cluster, c, hm, -, -, hc, hcfg, ho⟩ := h
    refine ⟨m, c, hm, hc, hcfg, ?_⟩
    cases o with
    | getMachineState | getMachineAddress => exact ho.1.deletion
    | createMachine => exact ⟨ho.1.deletion, ho.1.finalizer, ho.2.1, ho.2.2.1⟩
    | startMachine => exact ⟨ho.1.deletion, ho.1.finalizer, ho.2.1⟩
    | deleteMachine => exact ho

/-- Before anything else, the object is read. -/
theorem Course.Allows.machine {q : Course} {o : ControllerSig.Op} (h : q.Allows o)
    (hread : o ≠ .api .getLibvirtMachine) : q.machine.isSome = true := by
  match o with
  | .provider o =>
    obtain ⟨m, -, -, hm, -⟩ := h
    exact Option.isSome_of_eq_some hm
  | .api o =>
    cases o with
    | getLibvirtMachine => exact absurd rfl hread
    | patchStatusConditions before after => exact Option.isSome_of_eq_some h.1
    | patch before after => exact Option.isSome_of_eq_some h.1
    | patchStatus before after => exact Option.isSome_of_eq_some h.1
    | getClusterFromMetadata machine => exact h.1
    | loadCredentials c => exact h.1
    | _ => exact h

/-- It stays the one that was read. -/
theorem Course.next_machine (q : Course) {o : ControllerSig.Op} {r : ControllerSig.Ans o}
    (hread : o ≠ .api .getLibvirtMachine) : (q.next o r).machine = q.machine := by
  match o with
  | .provider o => cases o <;> rfl
  | .api o =>
    cases o with
    | getLibvirtMachine => exact absurd rfl hread
    | _ => rfl

/-- An allowed request that changes the object is a patch, made of the object
that was read and what an exit made of it. -/
theorem Course.Allows.edit {q : Course} {o : ApiOp} {f : LibvirtMachine → LibvirtMachine}
    (h : q.Allows (.api o)) (hf : o.edit = some f) :
    ∃ before after err, q.machine = some before ∧ q.Exit before after err
      ∧ (f = before.merge after ∨ f = before.mergeConditions after
        ∨ f = before.mergeStatus after) := by
  cases o with
  | patchStatusConditions before after =>
    obtain ⟨hm, -, err, hexit⟩ := h
    exact ⟨before, after, err, hm, hexit, Or.inr (Or.inl (Option.some.inj hf).symm)⟩
  | patch before after =>
    obtain ⟨hm, -, err, hexit⟩ := h
    exact ⟨before, after, err, hm, hexit, Or.inl (Option.some.inj hf).symm⟩
  | patchStatus before after =>
    obtain ⟨hm, -, err, hexit⟩ := h
    exact ⟨before, after, err, hm, hexit, Or.inr (Or.inr (Option.some.inj hf).symm)⟩
  | _ => cases hf

/-- A patch leaves the course as it is. -/
theorem Course.next_of_edit (q : Course) {o : ApiOp} {r : o.Result}
    {f : LibvirtMachine → LibvirtMachine} (hf : o.edit = some f) : q.next (.api o) r = q := by
  cases o <;> first | cases hf; done | rfl

section Obeys

variable {q : Course} {scope : MachineScope} {m : LibvirtMachine}

/-- The reconcile has everything it needs for `scope`. -/
structure Course.At (q : Course) (scope : MachineScope) : Prop where
  machine : q.machine = some scope.libvirtMachine
  cluster : q.cluster = some scope.cluster
  loaded : q.loaded = true
  libvirtCluster : q.libvirtCluster = some scope.libvirtCluster
  config : scope.machineConfig.IsFor scope.libvirtMachine scope.libvirtCluster

/-- A call of the provider is allowed when the operation is in place. -/
theorem Course.At.allows (hq : q.At scope) {o : MachineOp}
    (hcfg : o.cfg.IsFor scope.libvirtMachine scope.libvirtCluster)
    (ho : q.Grants scope.libvirtMachine scope.cluster o) : q.Allows (.provider o) :=
  ⟨_, _, _, hq.machine, hq.cluster, hq.loaded, hq.libvirtCluster, hcfg, ho⟩

/-! A call of the provider reads nothing. -/

theorem Course.At.next (hq : q.At scope) (o : MachineOp) {r : o.Result} :
    (q.next (.provider o) r).At scope := by
  cases o <;> exact ⟨hq.1, hq.2, hq.3, hq.4, hq.5⟩

theorem Course.Open.next {cluster : Cluster} (h : q.Open m cluster) (o : MachineOp)
    {r : o.Result} : (q.next (.provider o) r).Open m cluster := by
  cases o <;> exact ⟨h.1, h.2, h.3, h.4, h.5, h.6⟩

/-- What a reconcile has come to when the object goes to the patch. -/
def Course.Ends (before : LibvirtMachine) (q : Course) (r : LibvirtMachine × Outcome) : Prop :=
  q.machine = some before ∧ q.Exit before r.1 r.2.err

/-- A reconcile does what is allowed, and takes one of the exits. -/
abbrev TakesExit (q : Course) (before : LibvirtMachine)
    (p : ControllerM (LibvirtMachine × Outcome)) : Prop :=
  p.Obeys courseMonitor (Course.Ends before) q

theorem getCloudInitData_course {dataSecretName : String} (hm : q.machine = some m) :
    (getCloudInitData scope dataSecretName).Obeys courseMonitor (fun q' _ => q' = q) q := by
  refine Prog.obeys_perform_bind.mpr ⟨Option.isSome_of_eq_some hm, fun r => ?_⟩
  match r with
  | .error err => rfl
  | .ok none => rfl
  | .ok (some userData) => rfl

theorem reconcileMissing_course (hq : q.At scope)
    (hopen : q.Open scope.libvirtMachine scope.cluster) (hstate : q.state = some .notFound)
    (hcreated : q.created = false) (hasked : q.asked = false) :
    TakesExit q scope.libvirtMachine
      (reconcileMissing scope scope.libvirtMachine.withInfrastructure) := by
  unfold reconcileMissing
  split
  · exact ⟨hq.machine, .lost hopen hstate ‹_› hcreated _⟩
  · rename_i hid
    have hid : scope.libvirtMachine.spec.providerID = none := by simpa using hid
    cases scope.machine.dataSecretName with
    | none => exact ⟨hq.machine, .dataless hopen hstate hid hcreated⟩
    | some dataSecretName =>
      refine Prog.obeys_bind.mpr ((getCloudInitData_course hq.machine).mono ?_)
      rintro _ (err | cloudInitUserData) rfl
      · exact ⟨hq.machine, .unreadable hopen hstate hid hcreated _⟩
      · refine Prog.obeys_perform_bind.mpr
          ⟨hq.allows (hq.config.withUserData cloudInitUserData)
            ⟨hopen, hid, hstate, hcreated, hasked⟩, fun r => ?_⟩
        match r with
        | .error err =>
          exact ⟨hq.machine, .uncreated (hopen.next (.createMachine _) (r := .error err)) hstate hid
            (Bool.or_eq_false_iff.mpr ⟨hcreated, rfl⟩) _ err⟩
        | .ok () =>
          exact ⟨hq.machine, .created (hopen.next (.createMachine _)) hstate hid
            (Bool.or_true _)⟩

theorem reconcileStopped_course (hq : q.At scope)
    (hopen : q.Open scope.libvirtMachine scope.cluster) (hstate : q.state = some .stopped)
    (hstarted : q.started = false) :
    TakesExit q scope.libvirtMachine
      (reconcileStopped scope scope.libvirtMachine.withInfrastructure) := by
  refine Prog.obeys_perform_bind.mpr ⟨hq.allows hq.config ⟨hopen, hstate, hstarted⟩, fun r => ?_⟩
  match r with
  | .error err =>
    exact ⟨hq.machine, .unstarted (hopen.next (.startMachine _) (r := .error err)) hstate
      (Bool.or_eq_false_iff.mpr ⟨hstarted, rfl⟩) _ _ err⟩
  | .ok () =>
    exact ⟨hq.machine, .started (hopen.next (.startMachine _) (r := .ok ())) hstate
      (Bool.or_true _) _⟩

theorem reconcileRunning_course (hq : q.At scope)
    (hopen : q.Open scope.libvirtMachine scope.cluster) (hstate : q.state = some .running) :
    TakesExit q scope.libvirtMachine
      (reconcileRunning scope scope.libvirtMachine.withInfrastructure) := by
  refine Prog.obeys_perform_bind.mpr ⟨hq.allows hq.config ⟨hopen, hstate⟩, fun r => ?_⟩
  have hopen' := hopen.next (.getMachineAddress scope.machineConfig) (r := r)
  match r with
  | .error err => exact ⟨hq.machine, .running hopen' hstate _ (Or.inl rfl)⟩
  | .ok address =>
    dsimp only
    split
    · exact ⟨hq.machine, .running hopen' hstate _ (Or.inl rfl)⟩
    · exact ⟨hq.machine, .running hopen' hstate _ (Or.inr ⟨[address], rfl⟩)⟩

/-- The branches before the domain, and the states of the domain. -/
theorem reconcileNormal_course (hq : q.At scope) (hm : scope.libvirtMachine = m)
    (hdel : m.deletionTimestamp = false) (hidle : q.Idle) (hcreated : q.created = false)
    (hstarted : q.started = false) : TakesExit q m (reconcileNormal scope) := by
  subst hm
  unfold reconcileNormal
  dsimp only
  split
  · exact ⟨hq.machine, .paused hq.loaded hq.cluster hdel ‹_› hidle⟩
  rename_i hpaused
  have hpaused := Bool.eq_false_iff.mpr hpaused
  split
  · rename_i hnew
    exact ⟨hq.machine, .adopted hq.loaded hq.cluster hdel hpaused hnew.1 hidle⟩
  rename_i hfin
  have hfin : libvirtMachineFinalizer ∈ scope.libvirtMachine.finalizers := by
    by_contra h
    exact hfin ⟨h, hdel⟩
  split
  · exact ⟨hq.machine, .waiting hq.loaded hq.cluster hdel hpaused ‹_› hidle _ _⟩
  rename_i hinfra
  have hopen : q.Open scope.libvirtMachine scope.cluster :=
    ⟨hq.loaded, hq.cluster, hdel, hpaused, hfin, not_not.mp hinfra⟩
  refine Prog.obeys_perform_bind.mpr ⟨hq.allows hq.config ⟨hopen, hidle.1⟩, fun r => ?_⟩
  have hq' {r : Except GoError DomainState} :=
    hq.next (.getMachineState scope.machineConfig) (r := r)
  have hopen' {r : Except GoError DomainState} :=
    hopen.next (.getMachineState scope.machineConfig) (r := r)
  match r with
  | .error err => exact ⟨hq.machine, .stateless hopen' rfl err⟩
  | .ok .notFound => exact reconcileMissing_course hq' hopen' rfl hcreated hidle.2
  | .ok .stopped => exact reconcileStopped_course hq' hopen' rfl hstarted
  | .ok .running => exact reconcileRunning_course hq' hopen' rfl
  | .ok .unknown => exact ⟨hq.machine, .unknown hopen' rfl⟩

theorem reconcileDelete_course (hq : q.At scope) (hm : scope.libvirtMachine = m)
    (hdel : m.deletionTimestamp = true) (hstate : q.state = none) (hdeleted : q.deleted = false) :
    TakesExit q m (reconcileDelete scope) := by
  subst hm
  refine Prog.obeys_perform_bind.mpr ⟨hq.allows hq.config ⟨hdel, hdeleted⟩, fun r => ?_⟩
  have hq' {r : Except GoError Unit} := hq.next (.deleteMachine scope.machineConfig) (r := r)
  match r with
  | .error err => exact ⟨hq.machine, .undeleted hq'.loaded hq'.cluster hdel rfl hstate err⟩
  | .ok () =>
    dsimp only
    split
    · exact ⟨hq.machine, .deleted hq'.loaded hq'.cluster hdel ‹_› (Bool.or_true _) rfl hstate⟩
    · exact ⟨hq.machine, .undeleted hq'.loaded hq'.cluster hdel rfl hstate _⟩

theorem reconcileMachine_course :
    TakesExit { machine := some m } m (reconcileMachine m) := by
  have hunread (q : Course) (hm : q.machine = some m) (hl : q.loaded = false)
      (hs : q.Idle) (outcome : Outcome) : Course.Ends m q (m, outcome) :=
    ⟨hm, .unread hl hs⟩
  refine Prog.obeys_perform_bind.mpr ⟨rfl, fun r => ?_⟩
  match r with
  | .error err => exact hunread _ rfl rfl ⟨rfl, rfl⟩ _
  | .ok none => exact hunread _ rfl rfl ⟨rfl, rfl⟩ _
  | .ok (some ownerMachine) =>
  refine Prog.obeys_perform_bind.mpr ⟨⟨rfl, rfl, rfl⟩, fun r => ?_⟩
  match r with
  | .error err => exact hunread _ rfl rfl ⟨rfl, rfl⟩ _
  | .ok none => exact hunread _ rfl rfl ⟨rfl, rfl⟩ _
  | .ok (some ownerCluster) =>
  refine Prog.obeys_perform_bind.mpr ⟨rfl, fun r => ?_⟩
  match r with
  | .error err => exact hunread _ rfl rfl ⟨rfl, rfl⟩ _
  | .ok libvirtCluster =>
  refine Prog.obeys_perform_bind.mpr ⟨⟨rfl, rfl⟩, fun r => ?_⟩
  match r with
  | .error err => exact hunread _ rfl rfl ⟨rfl, rfl⟩ _
  | .ok creds =>
    dsimp only
    split
    · exact reconcileDelete_course ⟨rfl, rfl, rfl, rfl, rfl⟩ rfl ‹_› rfl rfl
    · rename_i hdel
      exact reconcileNormal_course ⟨rfl, rfl, rfl, rfl, rfl⟩ rfl (Bool.eq_false_iff.mpr hdel)
        ⟨rfl, rfl⟩ rfl rfl

theorem patchIf_course {differs : Bool} {request : ControllerM (Except ApiError Unit)}
    (h : differs = true → request.Obeys courseMonitor (fun q' _ => q' = q) q) :
    (patchIf differs request).Obeys courseMonitor (fun q' _ => q' = q) q := by
  cases differs with
  | false => rfl
  | true => exact h rfl

theorem helperPatch_course {before after : LibvirtMachine} {err : Option GoError}
    (hq : q.machine = some before) (hexit : q.Exit before after err) :
    (helperPatch before after).Obeys courseMonitor (fun q' _ => q' = q) q := by
  have hpatches (hne : after ≠ before) : q.Patches before after := ⟨hq, hne, err, hexit⟩
  refine Prog.obeys_bind.mpr ((patchIf_course fun hd => ?_).mono ?_)
  · refine ⟨hpatches ?_, fun _ => rfl⟩
    rintro rfl
    simp at hd
  rintro _ conditions rfl
  refine Prog.obeys_bind.mpr ((patchIf_course fun hd => ?_).mono ?_)
  · refine ⟨hpatches ?_, fun _ => rfl⟩
    rintro rfl
    simp at hd
  rintro _ object rfl
  refine Prog.obeys_bind.mpr ((patchIf_course fun hd => ?_).mono ?_)
  · refine ⟨hpatches ?_, fun _ => rfl⟩
    rintro rfl
    simp at hd
  rintro _ status rfl
  rfl

/-- **A reconcile keeps to its exits.** This is where the text of the
controller is gone through, branch by branch; what is proved about reconciles
elsewhere starts from here. -/
theorem reconcile_course : reconcile.Obeys courseMonitor (fun _ _ => True) {} := by
  refine Prog.obeys_perform_bind.mpr ⟨rfl, fun r => ?_⟩
  match r with
  | .error .notFound => trivial
  | .error (.other msg) => trivial
  | .ok m =>
  refine Prog.obeys_perform_bind.mpr ⟨rfl, fun r => ?_⟩
  match r with
  | .error err => trivial
  | .ok () =>
    refine Prog.obeys_bind.mpr (reconcileMachine_course.mono ?_)
    rintro q ⟨after, outcome⟩ ⟨hq, hexit⟩
    exact Prog.obeys_bind.mpr ((helperPatch_course hq hexit).mono fun _ _ _ => trivial)

end Obeys

/-! ## The objects of a reconcile -/

/-- **A reconcile serves a cluster**, and machines of some kind: what is
stored is of the kind, and so is what was read. What an edit or a patch keeps
of the object is said by the kind. -/
structure Course.Serves (c : LibvirtCluster) (I : LibvirtMachine → Prop) (q : Course)
    (s : ApiState) : Prop where
  cluster : s.libvirtCluster = some c
  stored : ∀ m, s.machine = some m → I m
  read : ∀ m, q.machine = some m → I m
  seen : ∀ c', q.libvirtCluster = some c' → c' = c

section Serves

variable {c : LibvirtCluster} {I : LibvirtMachine → Prop} {q : Course} {s s' : ApiState}

theorem Course.Serves.request (h : q.Serves c I s)
    (hI : ∀ o f m, ApiOp.edit o = some f → I m → I (f m)) {o : ApiOp} {r : o.Result}
    (ha : apiSem s o r s') : (q.next (.api o) r).Serves c I s' := by
  rcases apiSem_cases ha with rfl | ⟨f, stored, hedit, hm, -, rfl⟩
  · cases o with
    | getLibvirtMachine =>
      refine ⟨h.cluster, h.stored, fun m hm => ?_, fun _ h => nomatch h⟩
      cases r with
      | error err => cases hm
      | ok m' =>
        cases hm
        exact h.stored m ((apiSem_getLibvirtMachine ha).2 m rfl)
    | getLibvirtCluster key =>
      refine ⟨h.cluster, h.stored, h.read, fun c' hc => ?_⟩
      cases r with
      | error err => cases hc
      | ok c₁ =>
        cases hc
        exact Option.some.inj (((apiSem_getLibvirtCluster ha).2 c' rfl).symm.trans h.cluster)
    | _ => exact ⟨h.cluster, h.stored, h.read, h.seen⟩
  · rw [q.next_of_edit hedit]
    refine ⟨h.cluster, fun m' hm' => ?_, h.read, h.seen⟩
    obtain rfl := LibvirtMachine.eq_of_stores hm'
    exact hI o f stored hedit (h.stored stored hm)

theorem Course.Serves.operate (h : q.Serves c I s) (o : MachineOp) {r : o.Result} :
    (q.next (.provider o) r).Serves c I s := by
  cases o <;> exact ⟨h.cluster, h.stored, h.read, h.seen⟩

/-- An edit of the stored object. -/
theorem Course.Serves.edit (h : q.Serves c I s) {m : LibvirtMachine} (hm : I m) :
    q.Serves c I { s with machine := m.stores } := by
  refine ⟨h.cluster, fun m' hm' => ?_, h.read, h.seen⟩
  obtain rfl := LibvirtMachine.eq_of_stores hm'
  exact hm

/-- Between two reconciles nothing was read. -/
theorem Course.Serves.forget (h : q.Serves c I s) : Course.Serves c I {} s :=
  ⟨h.cluster, h.stored, (fun _ h => nomatch h), fun _ h => nomatch h⟩

end Serves

/-- **A reconcile keeps to what it may do**, which follows from the exits it
takes. -/
theorem reconcile_obeys : reconcile.Obeys reconcileMonitor (fun _ _ => True) {} :=
  reconcile_course.map Course.toSeen (fun _ _ h => Course.Allows.seen h) (fun _ _ _ => rfl)
    fun _ _ _ => trivial

end LibvirtProvider

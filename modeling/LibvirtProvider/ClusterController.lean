import LibvirtProvider.Infra
import LibvirtProvider.MachineController

/-!
# The cluster controller

The model of `libvirtcluster_controller.go`: one call of `Reconcile` is a
program over the requests to the API server, the credentials loader and
`EnsureInfra`. As in the machine controller, the object is passed along and
comes back changed, and the deferred patch is made of what was read and what
came back.

Runs are those of the stored object: reconciles one after the other, with any
owner, credentials and infrastructure, whose requests may fail, and between
them whatever others do to the object (`ClusterRun`). The label of a reconcile
is its `Pass`: what it read, what it was answered and what came back. What a
reconcile of an owned object can come to is said once, by `Work.Ends`.
-/

namespace LibvirtProvider

open Interaction

/-! ## Objects -/

/-- `clusterv1.APIEndpoint`. -/
structure APIEndpoint where
  host : String
  port : Int32
  deriving DecidableEq

/-- `APIEndpoint.IsValid`. -/
def APIEndpoint.isValid (e : APIEndpoint) : Bool := e.host ≠ "" && e.port ≠ 0

/-- `LibvirtClusterStatus`. -/
structure LibvirtClusterStatus where
  ready : Bool
  conditions : List Condition
  provisioned : Bool
  deriving DecidableEq

/-- What is left of the status without its conditions is the zero value. -/
def LibvirtClusterStatus.blank (status : LibvirtClusterStatus) : Bool :=
  !status.ready && !status.provisioned

/-- `LibvirtCluster`, with what the cluster controller needs of it. -/
structure LibvirtClusterObject extends LibvirtCluster where
  controlPlaneEndpoint : APIEndpoint
  finalizers : List String
  deletionTimestamp : Bool
  pausedAnnotation : Bool
  status : LibvirtClusterStatus
  deriving DecidableEq

/-- `clusterv1.Cluster`, with the endpoint. -/
structure OwnerCluster extends Cluster where
  controlPlaneEndpoint : APIEndpoint
  deriving DecidableEq

/-- `LibvirtClusterFinalizer`. -/
def libvirtClusterFinalizer : String :=
  "libvirtcluster.infrastructure.cluster.x-k8s.io/finalizer"

namespace LibvirtClusterObject

variable (c : LibvirtClusterObject)

/-- `conditions.Set` on the object. -/
def withCondition (type : ConditionType) (status : ConditionStatus) (reason : ConditionReason)
    (message : String) : LibvirtClusterObject :=
  { c with status := { c.status with
      conditions := setCondition c.status.conditions ⟨type, status, reason, message⟩ } }

/-- `Status.Ready`. -/
def withReady (ready : Bool) : LibvirtClusterObject :=
  { c with status := { c.status with ready := ready } }

/-- `Status.Initialization.Provisioned`. -/
def withProvisioned (provisioned : Bool) : LibvirtClusterObject :=
  { c with status := { c.status with provisioned := provisioned } }

end LibvirtClusterObject

/-- The text of an error of `EnsureInfra`. -/
def InfraError.message : InfraError → String
  | .missing kind name => kind.text ++ " '" ++ name ++ "' not found"
  | .inactive kind name => kind.text ++ " '" ++ name ++ "' exists but is not active (start it "
      ++ "out-of-band; the provider does not manage pool/network lifecycle)"
  | .other err => err.message

/-! ## The calls -/

/-- **What the cluster controller calls.** `EnsureInfra` is one call here: the
controller goes by its result and by nothing else. -/
inductive ClusterOp where
  | getLibvirtCluster
  | getOwnerCluster (libvirtCluster : LibvirtClusterObject)
  | newHelper
  | loadCredentials (libvirtCluster : LibvirtClusterObject)
  | ensureInfra (cfg : InfraConfig)
  | patchStatusConditions (before after : LibvirtClusterObject)
  | patch (before after : LibvirtClusterObject)
  | patchStatus (before after : LibvirtClusterObject)

/-- The signature of the cluster controller. -/
def ClusterSig : Signature where
  Op := ClusterOp
  Ans
    | .getLibvirtCluster => Except ApiError LibvirtClusterObject
    | .getOwnerCluster _ => Except GoError (Option OwnerCluster)
    | .newHelper => Except GoError Unit
    | .loadCredentials _ => Except GoError (Option Credentials)
    | .ensureInfra _ => Except InfraError Unit
    | .patchStatusConditions _ _ => Except ApiError Unit
    | .patch _ _ => Except ApiError Unit
    | .patchStatus _ _ => Except ApiError Unit

/-- A program of the cluster controller. -/
abbrev ClusterM (α : Type) := Prog ClusterSig α

/-- `ClusterScope`. -/
structure ClusterScope where
  cluster : OwnerCluster
  libvirtCluster : LibvirtClusterObject
  infraConfig : InfraConfig

/-- `newInfraConfig`. -/
def newInfraConfig (c : LibvirtClusterObject) : InfraConfig where
  uri := c.spec.uri
  basePool := c.spec.basePool
  domainPool := c.spec.domainPool
  network := c.spec.network
  credentials := none

/-- `hasControlPlaneEndpoint`. -/
def hasControlPlaneEndpoint (cluster : OwnerCluster) (c : LibvirtClusterObject) : Bool :=
  c.controlPlaneEndpoint.isValid || cluster.controlPlaneEndpoint.isValid

/-! ## Reconciling an object -/

namespace LibvirtClusterReconciler

/-- `annotations.IsPaused`. -/
def isPaused (cluster : OwnerCluster) (c : LibvirtClusterObject) : Bool :=
  cluster.paused == some true || c.pausedAnnotation

/-- `reconcileNormal`, once there is an endpoint. On the two failures the
condition is set and the flags are left as they were, which is where they come
to disagree. -/
def reconcileInfra (scope : ClusterScope) : ClusterM (LibvirtClusterObject × Outcome) := do
  let c := scope.libvirtCluster.withCondition .controlPlaneEndpointReady .yes
    .controlPlaneEndpointReady ""
  let c := c.withCondition .infrastructureReady .no .infrastructureProvisioningInProgress
    "Infrastructure provisioning in progress"
  match (← Prog.perform (σ := ClusterSig) (.loadCredentials c) :
      Except GoError (Option Credentials)) with
  | .error err =>
    return (c.withCondition .infrastructureReady .no .credentialsUnavailable err.message,
      { requeueAfter := some requeueTimeShort })
  | .ok creds =>
    let cfg := { scope.infraConfig with credentials := creds }
    match (← Prog.perform (σ := ClusterSig) (.ensureInfra cfg) : Except InfraError Unit) with
    | .error err =>
      return (c.withCondition .infrastructureReady .no (getInfraError err) err.message,
        { requeueAfter := some requeueTimeShort })
    | .ok () =>
      let c := c.withCondition .infrastructureReady .yes .infrastructureReady
        "All infrastructure components are ready"
      return ((c.withReady true).withProvisioned true, {})

/-- **`reconcileNormal`.** The pause is looked at first, and the finalizer is
added in a reconcile of its own. Without an endpoint the cluster is taken to
be not ready, and nobody is asked to come back: setting the endpoint wakes the
controller. -/
def reconcileNormal (scope : ClusterScope) : ClusterM (LibvirtClusterObject × Outcome) := do
  let c := scope.libvirtCluster
  if isPaused scope.cluster c then return (c, {})
  if libvirtClusterFinalizer ∉ c.finalizers then
    return ({ c with finalizers := c.finalizers ++ [libvirtClusterFinalizer] }, {})
  if !hasControlPlaneEndpoint scope.cluster c then
    let c := c.withCondition .controlPlaneEndpointReady .no .controlPlaneEndpointMissing
      "Set spec.controlPlaneEndpoint on the LibvirtCluster or the Cluster"
    return ((c.withReady false).withProvisioned false, {})
  reconcileInfra scope

/-- **`reconcileDelete`.** Nothing on a host belongs to the cluster, so the
finalizer goes at once. That it is not there is an error. -/
def reconcileDelete (scope : ClusterScope) : LibvirtClusterObject × Outcome :=
  let c := scope.libvirtCluster
  if libvirtClusterFinalizer ∈ c.finalizers then
    ({ c with finalizers := c.finalizers.filter (· ≠ libvirtClusterFinalizer) }, {})
  else
    (c, { err := some (.text ("unable to remove finalizer " ++ libvirtClusterFinalizer
      ++ " from LibvirtCluster  " ++ scope.cluster.nmspace ++ "/" ++ scope.cluster.name)) })

/-- `Reconcile`, for an object that has an owner. -/
def reconcileOwned (c : LibvirtClusterObject) (owner : OwnerCluster) :
    ClusterM (LibvirtClusterObject × Outcome) :=
  let scope : ClusterScope := ⟨owner, c, newInfraConfig c⟩
  if c.deletionTimestamp then pure (reconcileDelete scope) else reconcileNormal scope

/-- `Reconcile`, from the object read to the object to be patched. -/
def reconcileCluster (c : LibvirtClusterObject) :
    Option OwnerCluster → ClusterM (LibvirtClusterObject × Outcome)
  | none => pure (c, {})
  | some owner => reconcileOwned c owner

/-- `Helper.Patch`: as for a machine. The spec is never changed. -/
def helperPatch (before after : LibvirtClusterObject) : ClusterM (Option GoError) := do
  let conditions : Except ApiError Unit ←
    if after.status.conditions ≠ before.status.conditions then
      Prog.perform (σ := ClusterSig) (.patchStatusConditions before after)
    else pure (.ok ())
  let object : Except ApiError Unit ←
    if after.finalizers ≠ before.finalizers then
      Prog.perform (σ := ClusterSig) (.patch before after)
    else pure (.ok ())
  let status : Except ApiError Unit ←
    if after.status ≠ before.status then
      Prog.perform (σ := ClusterSig) (.patchStatus before after)
    else pure (.ok ())
  let status := match status with
    | .error .notFound =>
      if after.deletionTimestamp && after.finalizers.isEmpty then .ok () else status
    | _ => status
  return newAggregate ([conditions, object, status].filterMap fun
    | .error err => some err.toGo
    | .ok () => none)

/-- **`LibvirtClusterReconciler.Reconcile`.** An object without an owner is
left as it is; it is patched all the same, with nothing to send. -/
def reconcile : ClusterM Outcome := do
  match (← Prog.perform (σ := ClusterSig) .getLibvirtCluster :
      Except ApiError LibvirtClusterObject) with
  | .error .notFound => return {}
  | .error err => return { err := some err.toGo }
  | .ok c =>
  match (← Prog.perform (σ := ClusterSig) (.getOwnerCluster c) :
      Except GoError (Option OwnerCluster)) with
  | .error err => return { err := some err }
  | .ok owner =>
  match (← Prog.perform (σ := ClusterSig) .newHelper : Except GoError Unit) with
  | .error err => return { err := some err }
  | .ok () =>
    let (after, outcome) ← reconcileCluster c owner
    let patchErr ← helperPatch c after
    return { outcome with err := outcome.err <|> patchErr }

end LibvirtClusterReconciler

/-! ## The stored object -/

/-- What the environment decides about a call: whether it fails, whether a
request is carried out nevertheless, the owner, the credentials and what
`EnsureInfra` returns. -/
structure ClusterChoice where
  fault : Option String := none
  lost : Bool := false
  owner : Option OwnerCluster := none
  credentials : Option Credentials := none
  infra : Except InfraError Unit := .ok ()

namespace LibvirtClusterObject

variable (before after stored : LibvirtClusterObject)

/-- The object with the changes to the finalizers. -/
def merge : LibvirtClusterObject :=
  { stored with finalizers := if after.finalizers = before.finalizers then stored.finalizers
      else after.finalizers }

/-- The object with the changes to the conditions. -/
def mergeConditions : LibvirtClusterObject :=
  { stored with status := { stored.status with
      conditions := (after.status.conditions.filter (· ∉ before.status.conditions)).foldl
        setCondition stored.status.conditions } }

/-- **The patch of the status removes all of it**, as for a machine: without its
conditions it becomes zero, and is omitted. -/
def wipes : Bool := after.status.blank && !before.status.blank

/-- The object with the changes to the rest of the status, field by field, or
without any status where the patch is one that removes it (`wipes`). -/
def mergeStatus : LibvirtClusterObject :=
  { stored with status :=
    if before.wipes after then ⟨false, [], false⟩
    else
      { ready := if after.status.ready = before.status.ready then stored.status.ready
          else after.status.ready
        conditions := stored.status.conditions
        provisioned := if after.status.provisioned = before.status.provisioned then
          stored.status.provisioned else after.status.provisioned } }

/-- Whether the API server takes an object in place of the stored one. -/
def accepts (new : LibvirtClusterObject) : Bool :=
  !stored.deletionTimestamp || new.finalizers.all (· ∈ stored.finalizers)

/-- What is stored for an object. -/
def stores (c : LibvirtClusterObject) : Option LibvirtClusterObject :=
  if c.deletionTimestamp && c.finalizers.isEmpty then none else some c

section MergeStatus

variable {before after stored}

theorem blank_of_wipes (h : before.wipes after = true) :
    after.status.ready = false ∧ after.status.provisioned = false := by
  simpa [wipes, LibvirtClusterStatus.blank] using (Bool.and_eq_true_iff.mp h).1

theorem mergeStatus_of_wipes (h : before.wipes after = true) :
    (before.mergeStatus after stored).status = ⟨false, [], false⟩ := if_pos h

theorem mergeStatus_self (h : after.status = before.status) :
    before.mergeStatus after stored = stored := by
  simp [mergeStatus, wipes, h]

/-- A flag that nobody else has written is as the reconcile leaves it. -/
theorem mergeStatus_ready (h : stored.status.ready = before.status.ready) :
    (before.mergeStatus after stored).status.ready = after.status.ready := by
  cases hw : before.wipes after with
  | true => rw [mergeStatus_of_wipes hw, (blank_of_wipes hw).1]
  | false =>
    simp only [mergeStatus, hw, Bool.false_eq_true, if_false, h]
    split
    · exact Eq.symm ‹_›
    · rfl

theorem mergeStatus_provisioned (h : stored.status.provisioned = before.status.provisioned) :
    (before.mergeStatus after stored).status.provisioned = after.status.provisioned := by
  cases hw : before.wipes after with
  | true => rw [mergeStatus_of_wipes hw, (blank_of_wipes hw).2]
  | false =>
    simp only [mergeStatus, hw, Bool.false_eq_true, if_false, h]
    split
    · exact Eq.symm ‹_›
    · rfl

/-- A flag that is set was set before, or is set by the reconcile. -/
theorem provisioned_of_mergeStatus
    (h : (before.mergeStatus after stored).status.provisioned = true) :
    stored.status.provisioned = true
    ∨ after.status.provisioned = true ∧ before.status.provisioned = false := by
  cases hw : before.wipes after with
  | true =>
    rw [mergeStatus_of_wipes hw] at h
    cases h
  | false =>
    simp only [mergeStatus, hw, Bool.false_eq_true, if_false] at h
    split at h
    · exact Or.inl h
    · rename_i hne
      exact Or.inr ⟨h, Bool.eq_false_iff.mpr fun hb => hne (h.trans hb.symm)⟩

end MergeStatus

end LibvirtClusterObject

namespace ClusterChoice

variable {α : Type}

/-- The object, if it is there. -/
def find (c : ClusterChoice) (s : Option LibvirtClusterObject) :
    Option (Except ApiError LibvirtClusterObject × Option LibvirtClusterObject) :=
  match c.fault, s with
  | some msg, _ => some (.error (.other msg), s)
  | none, none => some (.error .notFound, s)
  | none, some object => some (.ok object, s)

/-- An answer that does not depend on the state. -/
def answer (c : ClusterChoice) (s : Option LibvirtClusterObject) (a : α) :
    Option (Except GoError α × Option LibvirtClusterObject) :=
  match c.fault with
  | some msg => some (.error (.text msg), s)
  | none => some (.ok a, s)

/-- A change of the object. -/
def change (c : ClusterChoice) (s : Option LibvirtClusterObject)
    (f : LibvirtClusterObject → LibvirtClusterObject) :
    Option (Except ApiError Unit × Option LibvirtClusterObject) :=
  match s with
  | none => some (.error .notFound, s)
  | some stored =>
    if stored.accepts (f stored) then
      match c.fault with
      | none => some (.ok (), (f stored).stores)
      | some msg => some (.error (.other msg), if c.lost then (f stored).stores else s)
    else some (.error (.other "invalid"), s)

end ClusterChoice

/-- **The calls of the cluster controller**, on the stored object. Owner,
credentials and infrastructure may answer differently each time. -/
def clusterStep (s : Option LibvirtClusterObject) :
    (o : ClusterSig.Op) → ClusterChoice → Option (ClusterSig.Ans o × Option LibvirtClusterObject)
  | .getLibvirtCluster, c => c.find s
  | .getOwnerCluster _, c => c.answer s c.owner
  | .newHelper, c => c.answer s ()
  | .loadCredentials _, c => c.answer s c.credentials
  | .ensureInfra _, c => some (c.infra, s)
  | .patchStatusConditions before after, c => c.change s (before.mergeConditions after)
  | .patch before after, c => c.change s (before.merge after)
  | .patchStatus before after, c => c.change s (before.mergeStatus after)

/-- What the calls mean, over every choice of the environment. -/
def clusterSem : Sem ClusterSig (Option LibvirtClusterObject) := Prog.semOf clusterStep

theorem clusterSem_getLibvirtCluster {s s' : Option LibvirtClusterObject}
    {r : Except ApiError LibvirtClusterObject} (h : clusterSem s .getLibvirtCluster r s') :
    s' = s ∧ ∀ c, r = .ok c → s = some c := by
  obtain ⟨c, hc⟩ := h
  change c.find s = some (r, s') at hc
  unfold ClusterChoice.find at hc
  split at hc <;> cases hc
  · exact ⟨rfl, nofun⟩
  · exact ⟨rfl, nofun⟩
  · refine ⟨rfl, ?_⟩
    rintro _ ⟨⟩
    rfl

theorem ClusterChoice.answer_eq_some {α : Type} {c : ClusterChoice}
    {s s' : Option LibvirtClusterObject} {a : α} {r : Except GoError α}
    (h : c.answer s a = some (r, s')) : s' = s := by
  unfold ClusterChoice.answer at h
  split at h <;> cases h <;> rfl

/-- Only a patch changes the object. -/
def ClusterOp.isPatch : ClusterOp → Bool
  | .patchStatusConditions _ _ | .patch _ _ | .patchStatus _ _ => true
  | _ => false

theorem clusterSem_keeps {s s' : Option LibvirtClusterObject} {o : ClusterSig.Op}
    {r : ClusterSig.Ans o} (ho : ClusterOp.isPatch o = false) (h : clusterSem s o r s') :
    s' = s := by
  cases o with
  | patchStatusConditions | patch | patchStatus => cases ho
  | getLibvirtCluster => exact (clusterSem_getLibvirtCluster h).1
  | ensureInfra cfg =>
    obtain ⟨c, hc⟩ := h
    cases hc
    rfl
  | getOwnerCluster c | newHelper | loadCredentials c =>
    exact ClusterChoice.answer_eq_some h.choose_spec

/-! ## What a reconcile comes to -/

/-- A reconcile of an object that has an owner: what it read, the calls it
made before the patch with their answers, and the object as it goes to the
patch. A statement about reconciles of a run is a statement about these. -/
structure Pass where
  owner : OwnerCluster
  before : LibvirtClusterObject
  events : List (Event ClusterSig)
  after : LibvirtClusterObject

namespace Pass

variable (p : Pass)

/-- The object, or its cluster, is paused. -/
def Paused : Prop := LibvirtClusterReconciler.isPaused p.owner p.before = true

/-- The credentials could not be loaded, or the infrastructure is not there. -/
def Failed : Prop :=
  (∃ c e, ⟨.loadCredentials c, (.error e : Except GoError (Option Credentials))⟩ ∈ p.events)
  ∨ ∃ cfg e, ⟨.ensureInfra cfg, (.error e : Except InfraError Unit)⟩ ∈ p.events

/-- The pass goes through `reconcileNormal` beyond the pause and the
finalizer. -/
structure Checked : Prop where
  deletion : p.before.deletionTimestamp = false
  paused : ¬ p.Paused
  finalizer : libvirtClusterFinalizer ∈ p.before.finalizers

end Pass

/-- **Readiness agrees with the conditions**: the cluster is ready exactly
when both conditions that the controller sets are true. Cluster API goes by
the flag and users look at the conditions. -/
def LibvirtClusterObject.Agrees (c : LibvirtClusterObject) : Prop :=
  c.status.ready = true ↔
    conditionStatus c.status.conditions .controlPlaneEndpointReady = some .yes
    ∧ conditionStatus c.status.conditions .infrastructureReady = some .yes

/-- **The exits of a reconcile**, with what each leaves of the flag and the
conditions. On a failure the condition is set and the flag is kept, unlike
where there is no endpoint. -/
inductive Pass.Exit (p : Pass) : Prop where
  /-- The object is paused and left as it is. -/
  | paused (hdel : p.before.deletionTimestamp = false) (hpaused : p.Paused)
      (hafter : p.after = p.before)
  /-- The finalizer is added. -/
  | adopted (hpaused : ¬ p.Paused) (hfin : libvirtClusterFinalizer ∉ p.before.finalizers)
  /-- There is no endpoint. -/
  | noEndpoint (hpaused : ¬ p.Paused) (hendpoint : hasControlPlaneEndpoint p.owner p.before = false)
      (hready : p.after.status.ready = false)
      (hcondition : conditionStatus p.after.status.conditions .controlPlaneEndpointReady = some .no)
  /-- The credentials or the infrastructure failed. -/
  | failed (hpaused : ¬ p.Paused) (hendpoint : hasControlPlaneEndpoint p.owner p.before = true)
      (hfailed : p.Failed) (hready : p.after.status.ready = p.before.status.ready)
      (hcondition : conditionStatus p.after.status.conditions .infrastructureReady = some .no)
  /-- The infrastructure is there. -/
  | provisioned (hpaused : ¬ p.Paused) (hfailed : ¬ p.Failed) (hready : p.after.status.ready = true)
      (hendpoint : conditionStatus p.after.status.conditions .controlPlaneEndpointReady = some .yes)
      (hinfra : conditionStatus p.after.status.conditions .infrastructureReady = some .yes)
  /-- The finalizer is removed. -/
  | removed (hdel : p.before.deletionTimestamp = true)
      (hfin : libvirtClusterFinalizer ∈ p.before.finalizers)
      (hafter : libvirtClusterFinalizer ∉ p.after.finalizers)
  /-- The object is being deleted and has no finalizer. -/
  | left (hdel : p.before.deletionTimestamp = true)
      (hfin : libvirtClusterFinalizer ∉ p.before.finalizers) (hafter : p.after = p.before)

section Exit

variable {S : Type} {sem : Sem ClusterSig S} {s s' : S} {tr : List (Event ClusterSig)}
  {c after : LibvirtClusterObject} {owner : OwnerCluster} {outcome : Outcome}

theorem reconcileInfra_exit {cfg : InfraConfig}
    (hpaused : ¬ LibvirtClusterReconciler.isPaused owner c = true)
    (hendpoint : hasControlPlaneEndpoint owner c = true)
    (h : Prog.Exec sem (LibvirtClusterReconciler.reconcileInfra ⟨owner, c, cfg⟩) s tr s'
      (after, outcome)) :
    Pass.Exit ⟨owner, c, tr, after⟩ := by
  obtain ⟨r, s₁, tr₁, -, rfl, h⟩ := h
  match r with
  | .error err =>
    obtain ⟨rfl, -, heq⟩ := h
    cases heq
    exact .failed hpaused hendpoint (Or.inl ⟨_, err, List.mem_cons_self⟩) rfl
      (by simp [LibvirtClusterObject.withCondition])
  | .ok creds =>
    obtain ⟨r, s₂, tr₂, -, rfl, h⟩ := h
    match r with
    | .error err =>
      obtain ⟨rfl, -, heq⟩ := h
      cases heq
      exact .failed hpaused hendpoint
        (Or.inr ⟨_, err, List.mem_cons_of_mem _ List.mem_cons_self⟩) rfl
        (by simp [LibvirtClusterObject.withCondition])
    | .ok () =>
      obtain ⟨rfl, -, heq⟩ := h
      cases heq
      refine .provisioned hpaused ?_ rfl ?_ ?_
      · rintro (⟨_, _, hev⟩ | ⟨_, _, hev⟩) <;>
          rcases List.mem_pair.mp hev with hev | hev <;> cases hev
      · simp [LibvirtClusterObject.withCondition, LibvirtClusterObject.withReady,
          LibvirtClusterObject.withProvisioned]
      · simp [LibvirtClusterObject.withCondition, LibvirtClusterObject.withReady,
          LibvirtClusterObject.withProvisioned]

/-- **A reconcile of an object that has an owner takes one of the exits**,
whatever it is answered. -/
theorem reconcileOwned_exit
    (h : Prog.Exec sem (LibvirtClusterReconciler.reconcileOwned c owner) s tr s'
      (after, outcome)) :
    Pass.Exit ⟨owner, c, tr, after⟩ := by
  unfold LibvirtClusterReconciler.reconcileOwned at h
  dsimp only at h
  split at h
  · rename_i hdel
    obtain ⟨rfl, -, heq⟩ := h
    unfold LibvirtClusterReconciler.reconcileDelete at heq
    dsimp only at heq
    split at heq <;> cases heq
    · exact .removed hdel ‹_› (by simp)
    · exact .left hdel ‹_› rfl
  · rename_i hdel
    unfold LibvirtClusterReconciler.reconcileNormal at h
    dsimp only at h
    split at h
    · obtain ⟨rfl, -, heq⟩ := h
      cases heq
      exact .paused (Bool.eq_false_iff.mpr hdel) ‹_› rfl
    split at h
    · obtain ⟨rfl, -, heq⟩ := h
      cases heq
      exact .adopted ‹_› ‹_›
    split at h
    · rename_i hendpoint
      obtain ⟨rfl, -, heq⟩ := h
      cases heq
      refine .noEndpoint ‹_› (Bool.not_eq_true' _ ▸ hendpoint) rfl ?_
      simp [LibvirtClusterObject.withCondition, LibvirtClusterObject.withReady,
        LibvirtClusterObject.withProvisioned]
    · rename_i hendpoint
      exact reconcileInfra_exit ‹_› (by simpa using hendpoint) h

end Exit

/-! ## Runs -/

/-- What others do to the object: they edit it, but not its status, or create
it. -/
inductive ClusterOutside : Option LibvirtClusterObject → Option LibvirtClusterObject → Prop where
  | edit {c c' : LibvirtClusterObject} (hstatus : c'.status = c.status) :
      ClusterOutside (some c) c'.stores
  | create {c : LibvirtClusterObject} (hstatus : c.status = ⟨false, [], false⟩) :
      ClusterOutside none (some c)

/-- **One step of a run**: a reconcile, with its pass, or something outside. A
reconcile that is cut off before its patch changes nothing, and so needs no
step of its own. -/
inductive ClusterStep :
    Option LibvirtClusterObject → Option Pass → Option LibvirtClusterObject → Prop where
  | reconcile {s s₁ s' : Option LibvirtClusterObject} {c after : LibvirtClusterObject}
      {owner : OwnerCluster} {tr tr' : List (Event ClusterSig)} {outcome : Outcome}
      {err : Option GoError} (hc : s = some c)
      (hwork : Prog.Exec clusterSem (LibvirtClusterReconciler.reconcileOwned c owner) s tr s₁
        (after, outcome))
      (hpatch : Prog.Exec clusterSem (LibvirtClusterReconciler.helperPatch c after) s₁ tr' s' err) :
      ClusterStep s (some ⟨owner, c, tr, after⟩) s'
  | outside {s s' : Option LibvirtClusterObject} (h : ClusterOutside s s') : ClusterStep s none s'

/-- The runs of the cluster controller. -/
abbrev ClusterRun := Run ClusterStep

/-- An object that comes back as it was is not patched. -/
theorem LibvirtClusterReconciler.helperPatch_self (c : LibvirtClusterObject) :
    LibvirtClusterReconciler.helperPatch c c = .done none := by
  simp [LibvirtClusterReconciler.helperPatch, newAggregate]

/-- **A call of `Reconcile` is a step**, where it does not end without a
change. -/
theorem LibvirtClusterReconciler.reconcile_exec {s s' : Option LibvirtClusterObject}
    {tr : List (Event ClusterSig)} {outcome : Outcome}
    (h : Prog.Exec clusterSem LibvirtClusterReconciler.reconcile s tr s' outcome) :
    s' = s ∨ ∃ p, ClusterStep s (some p) s' := by
  obtain ⟨r, s₁, tr₁, hs, -, h⟩ := h
  obtain ⟨rfl, hread⟩ := clusterSem_getLibvirtCluster hs
  match r with
  | .error .notFound => exact Or.inl h.2.1
  | .error (.other msg) => exact Or.inl h.2.1
  | .ok c =>
  have hc := hread c rfl
  obtain ⟨r, s₂, tr₂, hs, -, h⟩ := h
  obtain rfl := clusterSem_keeps rfl hs
  match r with
  | .error err => exact Or.inl h.2.1
  | .ok owner =>
  obtain ⟨r, s₃, tr₃, hs, -, h⟩ := h
  obtain rfl := clusterSem_keeps rfl hs
  match r with
  | .error err => exact Or.inl h.2.1
  | .ok () =>
    change Prog.Exec clusterSem (LibvirtClusterReconciler.reconcileCluster c owner >>= _)
      _ _ _ _ at h
    obtain ⟨⟨after, outcome'⟩, s₄, tr₄, tr₅, -, hwork, h⟩ := Prog.exec_bind.mp h
    obtain ⟨err, s₅, tr₆, tr₇, -, hpatch, -, rfl, -⟩ := Prog.exec_bind.mp h
    cases owner with
    | none =>
      obtain ⟨-, rfl, heq⟩ := hwork
      cases heq
      change Prog.Exec clusterSem (LibvirtClusterReconciler.helperPatch c c) _ _ _ _ at hpatch
      rw [LibvirtClusterReconciler.helperPatch_self] at hpatch
      exact Or.inl hpatch.2.1
    | some owner => exact Or.inr ⟨_, .reconcile hc hwork hpatch⟩

/-- The reconciles of a run take one of the exits. -/
theorem ClusterRun.exit {s s' : Option LibvirtClusterObject} {ps : List (Option Pass)}
    (h : ClusterRun s ps s') {p : Pass} (hp : some p ∈ ps) : p.Exit := by
  obtain ⟨s₁, s₂, hstep⟩ := h.exists_step hp
  cases hstep with
  | reconcile hc hwork hpatch => exact reconcileOwned_exit hwork

/-! ## Readiness and the conditions -/

/-- The condition under which a pass leaves readiness and conditions agreeing:
where there is an endpoint and the credentials or the infrastructure fail, the
cluster was not ready. It is on what the pass finds, and not on what it
leaves. -/
def Pass.Consistent (p : Pass) : Prop :=
  hasControlPlaneEndpoint p.owner p.before = true → p.Failed → p.before.status.ready = false

theorem Pass.Exit.agrees_iff {p : Pass} (h : p.Exit) (hp : p.Checked) :
    p.after.Agrees ↔ p.Consistent := by
  cases h with
  | paused _ hpaused => exact absurd hpaused hp.paused
  | adopted _ hfin => exact absurd hp.finalizer hfin
  | removed hdel => cases hp.deletion.symm.trans hdel
  | left hdel => cases hp.deletion.symm.trans hdel
  | noEndpoint _ hendpoint hready hcondition =>
    refine iff_of_true ?_ fun h => ?_
    · rw [LibvirtClusterObject.Agrees, hready, hcondition]
      simp
    · cases hendpoint.symm.trans h
  | failed _ hendpoint hfailed hready hcondition =>
    rw [LibvirtClusterObject.Agrees, hready, hcondition]
    constructor
    · intro h _ _
      simpa using h
    · intro h
      rw [h hendpoint hfailed]
      simp
  | provisioned _ hfailed hready hendpoint hinfra =>
    refine iff_of_true ?_ fun _ h => absurd h hfailed
    rw [LibvirtClusterObject.Agrees, hready, hendpoint, hinfra]
    simp

/-- **Readiness agrees with the conditions** after all reconciles of a run that
get to the endpoint and the infrastructure, exactly if none of them finds the
cluster ready and its credentials or infrastructure failing. -/
theorem ready_agrees_iff {s s' : Option LibvirtClusterObject} {ps : List (Option Pass)}
    (h : ClusterRun s ps s') :
    (∀ p, some p ∈ ps → p.Checked → p.after.Agrees)
    ↔ ∀ p, some p ∈ ps → p.Checked → p.Consistent := by
  refine forall₂_congr fun p hp => forall_congr' fun hchecked => ?_
  exact (h.exit hp).agrees_iff hchecked

/-! ### Runs on given answers -/

/-- A reconcile on the given choices, with its pass. -/
def passOn (owner : OwnerCluster) (cs : List ClusterChoice) (s : Option LibvirtClusterObject) :
    Option (Pass × Option LibvirtClusterObject) :=
  s.bind fun c =>
    (Prog.runWith clusterStep {} (LibvirtClusterReconciler.reconcileOwned c owner) s cs).bind
      fun r => (Prog.runWith clusterStep {} (LibvirtClusterReconciler.helperPatch c r.2.2.1)
        r.2.1 []).map fun r' => (⟨owner, c, r.1, r.2.2.1⟩, r'.2.1)

theorem step_of_passOn {owner : OwnerCluster} {cs : List ClusterChoice}
    {s s' : Option LibvirtClusterObject} {p : Pass} (h : passOn owner cs s = some (p, s')) :
    ClusterStep s (some p) s' := by
  obtain ⟨c, hc, h⟩ := Option.bind_eq_some_iff.mp h
  obtain ⟨⟨tr, s₁, after, outcome⟩, hwork, h⟩ := Option.bind_eq_some_iff.mp h
  obtain ⟨⟨tr', s₂, err⟩, hpatch, heq⟩ := Option.map_eq_some_iff.mp h
  cases heq
  exact .reconcile hc (Prog.exec_of_runWith hwork) (Prog.exec_of_runWith hpatch)

/-- A cluster with an endpoint and the finalizer. -/
def sampleClusterObject : LibvirtClusterObject where
  toLibvirtCluster := sampleCluster
  controlPlaneEndpoint := ⟨"192.168.122.10", 6443⟩
  finalizers := [libvirtClusterFinalizer]
  deletionTimestamp := false
  pausedAnnotation := false
  status := ⟨false, [], false⟩

/-- Its owner. -/
def sampleOwner : OwnerCluster where
  toCluster := ⟨"prod", "default", "prod", none, none⟩
  controlPlaneEndpoint := ⟨"", 0⟩

/-- The credentials are loaded, and the network is not active. -/
def inactiveNetwork : List ClusterChoice := [{}, { infra := .error (.inactive .network "default") }]

/-- Two reconciles, and their passes. -/
def twoPasses (cs cs' : List ClusterChoice) :
    Option (Pass × Pass × Option LibvirtClusterObject) :=
  (passOn sampleOwner cs (some sampleClusterObject)).bind fun x =>
    (passOn sampleOwner cs' x.2).map fun y => (x.1, y)

theorem run_of_twoPasses {cs cs' : List ClusterChoice} {p p' : Pass}
    {s : Option LibvirtClusterObject} (h : twoPasses cs cs' = some (p, p', s)) :
    ClusterRun (some sampleClusterObject) [some p, some p'] s := by
  obtain ⟨⟨p₁, s₁⟩, h₁, h⟩ := Option.bind_eq_some_iff.mp h
  obtain ⟨⟨p₂, s₂⟩, h₂, heq⟩ := Option.map_eq_some_iff.mp h
  cases heq
  exact .snoc (.snoc (.nil _) (step_of_passOn h₁)) (step_of_passOn h₂)

/-- The network is not active at first, and the cluster not ready. -/
theorem ready_agrees_inactive_first :
    ∃ p p' s, ClusterRun (some sampleClusterObject) [some p, some p'] s
      ∧ p.Checked ∧ p.after.status.ready = false ∧ p.after.Agrees
      ∧ p'.Checked ∧ p'.after.status.ready = true ∧ p'.after.Agrees := by
  have hrun : (twoPasses inactiveNetwork []).map (fun x =>
      ((x.1.before.status.ready, x.1.after.status.ready),
        (x.2.1.before.status.ready, x.2.1.after.status.ready)))
      = some ((false, false), (false, true)) := by decide +kernel
  have hchecked : (twoPasses inactiveNetwork []).map (fun x =>
      [x.1, x.2.1].all fun p => !p.before.deletionTimestamp
        && !LibvirtClusterReconciler.isPaused p.owner p.before
        && p.before.finalizers.contains libvirtClusterFinalizer) = some true := by decide +kernel
  obtain ⟨⟨p, p', s⟩, h, heq⟩ := Option.map_eq_some_iff.mp hrun
  simp only [Prod.mk.injEq] at heq
  obtain ⟨⟨hbefore, hafter⟩, hbefore', hafter'⟩ := heq
  rw [h] at hchecked
  simp only [Option.map_some, Option.some.injEq, List.all_cons, List.all_nil, Bool.and_true,
    Bool.and_eq_true, Bool.not_eq_true', List.contains_iff_mem] at hchecked
  obtain ⟨⟨⟨hdel, hpaused⟩, hfin⟩, ⟨hdel', hpaused'⟩, hfin'⟩ := hchecked
  have hc : p.Checked := ⟨hdel, Bool.eq_false_iff.mp hpaused, hfin⟩
  have hc' : p'.Checked := ⟨hdel', Bool.eq_false_iff.mp hpaused', hfin'⟩
  have hreach := run_of_twoPasses h
  have hagrees := (ready_agrees_iff hreach).mpr fun x hx _ _ _ => by
    rcases List.mem_pair.mp hx with hx | hx
    · cases hx
      exact hbefore
    · cases hx
      exact hbefore'
  exact ⟨p, p', s, hreach, hc, hafter, hagrees p (by simp) hc, hc', hafter',
    hagrees p' (by simp) hc'⟩

/-- **A cluster stays ready when its network is found inactive**, and only the
condition says so. -/
theorem ready_disagrees_inactive_later :
    ∃ p p' s, ClusterRun (some sampleClusterObject) [some p, some p'] s
      ∧ p'.Checked ∧ p'.after.status.ready = true
      ∧ conditionStatus p'.after.status.conditions .infrastructureReady = some .no
      ∧ ¬ p'.after.Agrees := by
  have hrun : (twoPasses [] inactiveNetwork).map (fun x =>
      ((x.2.1.before.deletionTimestamp,
        LibvirtClusterReconciler.isPaused x.2.1.owner x.2.1.before),
        (x.2.1.before.finalizers.contains libvirtClusterFinalizer, x.2.1.after.status.ready)))
      = some ((false, false), (true, true)) := by decide +kernel
  have hcondition : (twoPasses [] inactiveNetwork).map (fun x =>
      conditionStatus x.2.1.after.status.conditions .infrastructureReady)
      = some (some .no) := by decide +kernel
  obtain ⟨⟨p, p', s⟩, h, heq⟩ := Option.map_eq_some_iff.mp hrun
  simp only [Prod.mk.injEq] at heq
  obtain ⟨⟨hdel, hpaused⟩, hfin, hready⟩ := heq
  rw [h] at hcondition
  have hcondition := Option.some.inj hcondition
  refine ⟨p, p', s, run_of_twoPasses h,
    ⟨hdel, Bool.eq_false_iff.mp hpaused, List.contains_iff_mem.mp hfin⟩, hready, hcondition, ?_⟩
  intro hagrees
  cases hcondition.symm.trans (hagrees.mp hready).2

end LibvirtProvider

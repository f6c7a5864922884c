import LibvirtProvider.Machine

/-!
# The objects in the API server

The model of `api/v1alpha1` and of what the machine controller asks of the
API server: reading the objects, and the three requests the deferred patch is
made of. One `LibvirtMachine` is looked at, with the `LibvirtCluster` of its
cluster.

What is assumed of the API server and of the patch helper:

* a patch carries the fields that differ between the object as it was read
  and as it is now, and changes these only, whatever the object is by then;
* an object that is being deleted gets no new finalizer, and is gone with its
  last one;
* `spec.providerID` does not change once it is set, by the rule of the
  resource definition;
* a request may fail at any time, without effect or after it was carried out.
-/

namespace LibvirtProvider

open Interaction

/-! ## Objects -/

/-- `types.NamespacedName`. -/
structure NamespacedName where
  nmspace : String
  name : String
  deriving DecidableEq, Repr

/-- `NamespacedName.String`. -/
def NamespacedName.text (n : NamespacedName) : String := n.nmspace ++ "/" ++ n.name

/-- The condition types of a `LibvirtMachine` and of a `LibvirtCluster`. -/
inductive ConditionType where
  | infrastructureReady
  | controlPlaneEndpointReady
  | machineCreated
  | domainProvisioningReady
  | domainRunning
  deriving DecidableEq, Repr

/-- `metav1.ConditionStatus`. -/
inductive ConditionStatus where
  | yes
  | no
  | unknown
  deriving DecidableEq, Repr

/-- The reasons that are given. -/
inductive ConditionReason where
  | infrastructureProvisioningInProgress
  | infrastructureProvisioningFailed
  | infrastructureReady
  | infrastructureMissing
  | infrastructureInactive
  | credentialsUnavailable
  | controlPlaneEndpointReady
  | controlPlaneEndpointMissing
  | machineCreated
  | domainProvisioningInProgress
  | domainProvisioningFailed
  | domainRunning
  | domainNotRunning
  | domainNotFound
  deriving DecidableEq, Repr

/-- `metav1.Condition`, without times. -/
structure Condition where
  type : ConditionType
  status : ConditionStatus
  reason : ConditionReason
  message : String
  deriving DecidableEq, Repr

/-- `conditions.Set`: the condition of the type is overwritten, or added.
Nothing removes a condition, so one that no branch sets again stays as it was. -/
def setCondition (l : List Condition) (c : Condition) : List Condition :=
  if l.any fun x => x.type == c.type then l.map fun x => if x.type = c.type then c else x
  else l ++ [c]

/-- The condition of a type. -/
def findCondition (l : List Condition) (t : ConditionType) : Option Condition :=
  l.find? fun c => c.type = t

/-- The status of the condition of a type, if there is one. -/
def conditionStatus (l : List Condition) (t : ConditionType) : Option ConditionStatus :=
  (findCondition l t).map Condition.status

/-- **Setting a condition sets the one of its type**, and leaves the others
alone. -/
theorem findCondition_setCondition (l : List Condition) (c : Condition) (t : ConditionType) :
    findCondition (setCondition l c) t = if c.type = t then some c else findCondition l t := by
  -- overwriting changes no type, so that the first one of a type is where it was
  have htype (x : Condition) : (if x.type = c.type then c else x).type = x.type := by
    split
    · rename_i h
      exact h.symm
    · rfl
  have hmap : findCondition (l.map fun x => if x.type = c.type then c else x) t
      = (findCondition l t).map fun x => if x.type = c.type then c else x := by
    rw [findCondition, List.find?_map, findCondition]
    simp only [Function.comp_def, htype]
  unfold setCondition
  by_cases hany : (l.any fun x => x.type == c.type) = true
  · rw [if_pos hany, hmap]
    by_cases ht : c.type = t
    · subst ht
      obtain ⟨x, hx, hxc⟩ := List.any_eq_true.mp hany
      cases hf : findCondition l c.type with
      | none => exact absurd (beq_iff_eq.mp hxc) (by simpa using List.find?_eq_none.mp hf x hx)
      | some y => simp [show y.type = c.type by simpa using List.find?_some hf]
    · rw [if_neg ht]
      cases hf : findCondition l t with
      | none => rfl
      | some y =>
        have hy : y.type = t := by simpa using List.find?_some hf
        simp [show ¬ y.type = c.type from fun h => ht (h.symm.trans hy)]
  · rw [if_neg hany, findCondition, List.find?_append, findCondition]
    by_cases ht : c.type = t
    · subst ht
      have hnone : l.find? (fun x => decide (x.type = c.type)) = none := by
        rw [List.find?_eq_none]
        intro x hx hxc
        exact hany (List.any_eq_true.mpr ⟨x, hx, by simpa using hxc⟩)
      simp [hnone]
    · simp [ht]

@[simp] theorem conditionStatus_setCondition (l : List Condition) (c : Condition)
    (t : ConditionType) :
    conditionStatus (setCondition l c) t
      = if c.type = t then some c.status else conditionStatus l t := by
  rw [conditionStatus, findCondition_setCondition]
  split <;> rfl

/-- No two conditions are of one type. -/
def DistinctTypes (l : List Condition) : Prop := (l.map Condition.type).Nodup

theorem findCondition_eq_none {l : List Condition} {t : ConditionType} :
    findCondition l t = none ↔ t ∉ l.map Condition.type := by
  simp [findCondition]

theorem findCondition_eq_some {l : List Condition} {t : ConditionType} {c : Condition}
    (h : findCondition l t = some c) : c ∈ l ∧ c.type = t :=
  ⟨List.mem_of_find?_eq_some h, by simpa using List.find?_some h⟩

/-- Where the types are distinct, a condition is the one of its type. -/
theorem DistinctTypes.findCondition {l : List Condition} (h : DistinctTypes l) {c : Condition}
    (hc : c ∈ l) : findCondition l c.type = some c := by
  cases hf : LibvirtProvider.findCondition l c.type with
  | none => exact absurd (List.mem_map_of_mem hc) (findCondition_eq_none.mp hf)
  | some x =>
    obtain ⟨hx, htype⟩ := findCondition_eq_some hf
    exact congrArg some (List.inj_on_of_nodup_map h hx hc htype)

/-- Setting conditions keeps the types distinct. -/
theorem DistinctTypes.setCondition {l : List Condition} (h : DistinctTypes l) (c : Condition) :
    DistinctTypes (setCondition l c) := by
  unfold LibvirtProvider.setCondition
  split
  · have htypes : (l.map fun x => if x.type = c.type then c else x).map Condition.type
        = l.map Condition.type := by
      rw [List.map_map]
      refine List.map_congr_left fun x _ => ?_
      show (if x.type = c.type then c else x).type = x.type
      split
      · rename_i hx
        exact hx.symm
      · rfl
    rwa [DistinctTypes, htypes]
  · rename_i hany
    rw [DistinctTypes, List.map_append, List.map_singleton, List.nodup_append_comm]
    refine List.nodup_cons.mpr ⟨fun hmem => hany ?_, h⟩
    obtain ⟨x, hx, hxc⟩ := List.mem_map.mp hmem
    exact List.any_eq_true.mpr ⟨x, hx, beq_iff_eq.mpr hxc⟩

theorem DistinctTypes.foldl {l : List Condition} (h : DistinctTypes l) (cs : List Condition) :
    DistinctTypes (cs.foldl LibvirtProvider.setCondition l) := by
  induction cs generalizing l with
  | nil => exact h
  | cons c cs ih => exact ih (h.setCondition c)

/-- Setting several conditions of distinct types. -/
theorem findCondition_foldl {cs : List Condition} (hcs : DistinctTypes cs) (l : List Condition)
    (t : ConditionType) :
    findCondition (cs.foldl setCondition l) t
      = (findCondition cs t).or (findCondition l t) := by
  induction cs generalizing l with
  | nil => rfl
  | cons c cs ih =>
    obtain ⟨hc, hcs⟩ := List.nodup_cons.mp hcs
    rw [List.foldl_cons, ih hcs, findCondition_setCondition]
    by_cases ht : c.type = t
    · subst ht
      have hnone : findCondition cs c.type = none := findCondition_eq_none.mpr hc
      rw [hnone, if_pos rfl]
      simp [findCondition]
    · rw [if_neg ht]
      simp [findCondition, ht]

/-- **The conditions that differ, set on those that were there, give the ones
there are now.** The patch helper sends the former; that nothing is lost by it
needs that no condition was dropped. -/
theorem findCondition_changes {before after : List Condition} (hb : DistinctTypes before)
    (ha : DistinctTypes after) (t : ConditionType)
    (ht : findCondition after t = none → findCondition before t = none) :
    findCondition ((after.filter (· ∉ before)).foldl setCondition before) t
      = findCondition after t := by
  have hdistinct : DistinctTypes (after.filter (· ∉ before)) :=
    ha.sublist (List.filter_sublist.map _)
  rw [findCondition_foldl hdistinct]
  cases hf : findCondition after t with
  | none =>
    have hnone : findCondition (after.filter (· ∉ before)) t = none := by
      rw [findCondition_eq_none] at hf ⊢
      exact fun h => hf ((List.filter_sublist.map _).subset h)
    rw [hnone, ht hf]
    rfl
  | some c =>
    obtain ⟨hc, rfl⟩ := findCondition_eq_some hf
    by_cases hcb : c ∈ before
    · have hnone : findCondition (after.filter (· ∉ before)) c.type = none := by
        rw [findCondition_eq_none, List.mem_map]
        rintro ⟨x, hx, htype⟩
        obtain ⟨hxa, hxb⟩ := List.mem_filter.mp hx
        cases List.inj_on_of_nodup_map ha hxa hc htype
        simp [hcb] at hxb
      rw [hnone, hb.findCondition hcb]
      rfl
    · have hmem : c ∈ after.filter (· ∉ before) := List.mem_filter.mpr ⟨hc, by simpa using hcb⟩
      rw [hdistinct.findCondition hmem]
      rfl

/-- `LibvirtMachineSpec`. -/
structure LibvirtMachineSpec where
  providerID : Option String
  vcpu : Int32
  memoryMiB : Int32
  diskGiB : Int32
  image : String
  deriving DecidableEq

/-- `LibvirtMachineStatus`. Of an address, the type is always `InternalIP`.
The flag `provisioned` stands under `initialization` in the source, and is
what Cluster API goes by. -/
structure LibvirtMachineStatus where
  ready : Bool
  addresses : List String
  conditions : List Condition
  provisioned : Bool
  deriving DecidableEq

/-- What is left of the status without its conditions is the zero value, so that
the status is omitted where it is written without them. -/
def LibvirtMachineStatus.blank (status : LibvirtMachineStatus) : Bool :=
  !status.ready && status.addresses.isEmpty && !status.provisioned

/-- `LibvirtMachine`. Of the annotations, it is known whether the one that
pauses the object is there. -/
structure LibvirtMachine where
  name : String
  nmspace : String
  uid : String
  finalizers : List String
  deletionTimestamp : Bool
  pausedAnnotation : Bool
  spec : LibvirtMachineSpec
  status : LibvirtMachineStatus
  deriving DecidableEq

/-- `LibvirtMachineFinalizer`. -/
def libvirtMachineFinalizer : String :=
  "libvirtmachine.infrastructure.cluster.x-k8s.io/finalizer"

/-- `LibvirtClusterSpec`, without the endpoint. -/
structure LibvirtClusterSpec where
  uri : String
  basePool : String
  domainPool : String
  network : String
  credentialsRef : Option String
  deriving DecidableEq, Repr

/-- What the API server asks of the spec: the fields are not empty. Nothing is
immutable, so that a cluster can be pointed at another host, pool or network
at any time. -/
def LibvirtClusterSpec.valid (spec : LibvirtClusterSpec) : Bool :=
  spec.uri ≠ "" && spec.basePool ≠ "" && spec.domainPool ≠ "" && spec.network ≠ ""
    && spec.credentialsRef.all (· ≠ "")

/-- `LibvirtCluster`, as far as a machine needs it. -/
structure LibvirtCluster where
  name : String
  nmspace : String
  spec : LibvirtClusterSpec
  deriving DecidableEq, Repr

/-- `clusterv1.Machine`, as far as it is read. -/
structure Machine where
  name : String
  nmspace : String
  dataSecretName : Option String
  deriving DecidableEq, Repr

/-- `clusterv1.Cluster`, as far as it is read. -/
structure Cluster where
  name : String
  nmspace : String
  infrastructureRefName : String
  paused : Option Bool
  infrastructureProvisioned : Option Bool
  deriving DecidableEq, Repr

/-! ## Requests -/

/-- An error of the API server: the object is not there, or another one. -/
inductive ApiError where
  | notFound
  | other (msg : String)
  deriving DecidableEq, Repr

/-- The error as a Go error. -/
def ApiError.toGo : ApiError → GoError
  | .notFound => .text "not found"
  | .other msg => .text msg

/-- **What the machine controller asks of the API server**, through its
client, the helpers of Cluster API and the credentials loader. The requests of
the patch carry the object as it was read and as it is to be, since what is
sent is the difference. -/
inductive ApiOp where
  | getLibvirtMachine
  | newHelper
  | getOwnerMachine (libvirtMachine : LibvirtMachine)
  | getClusterFromMetadata (machine : Machine)
  | getLibvirtCluster (key : NamespacedName)
  | loadCredentials (libvirtCluster : LibvirtCluster)
  | getSecretValue (key : NamespacedName)
  | patchStatusConditions (before after : LibvirtMachine)
  | patch (before after : LibvirtMachine)
  | patchStatus (before after : LibvirtMachine)

/-- What it answers. -/
def ApiOp.Result : ApiOp → Type
  | .getLibvirtMachine => Except ApiError LibvirtMachine
  | .newHelper => Except GoError Unit
  | .getOwnerMachine _ => Except GoError (Option Machine)
  | .getClusterFromMetadata _ => Except GoError (Option Cluster)
  | .getLibvirtCluster _ => Except GoError LibvirtCluster
  | .loadCredentials _ => Except GoError (Option Credentials)
  | .getSecretValue _ => Except GoError (Option Bytes)
  | .patchStatusConditions _ _ => Except ApiError Unit
  | .patch _ _ => Except ApiError Unit
  | .patchStatus _ _ => Except ApiError Unit

namespace LibvirtMachine

variable (before after stored : LibvirtMachine)

/-- The object with the changes to metadata and spec. Only what the reconcile
changed is written; what somebody else changed in the meantime stays. -/
def merge : LibvirtMachine :=
  { stored with
    finalizers := if after.finalizers = before.finalizers then stored.finalizers
      else after.finalizers
    spec := { stored.spec with
      providerID := if after.spec.providerID = before.spec.providerID then stored.spec.providerID
        else after.spec.providerID } }

/-- The object with the changes to the conditions. They go by type, so that a
condition set by somebody else in the meantime stays too. -/
def mergeConditions : LibvirtMachine :=
  { stored with status := { stored.status with
      conditions := (after.status.conditions.filter (· ∉ before.status.conditions)).foldl
        setCondition stored.status.conditions } }

/-- **The patch of the status removes all of it.** It is made of the two objects
without their conditions, and the field is omitted when it is zero. So where
the rest of the status becomes zero the patch is `{"status":null}`: it does not
reset the fields, but takes the stored conditions away with them. -/
def wipes : Bool := after.status.blank && !before.status.blank

/-- The object with the changes to the rest of the status, field by field, or
without any status where the patch is one that removes it (`wipes`). -/
def mergeStatus : LibvirtMachine :=
  { stored with status :=
    if before.wipes after then ⟨false, [], [], false⟩
    else
      { ready := if after.status.ready = before.status.ready then stored.status.ready
          else after.status.ready
        addresses := if after.status.addresses = before.status.addresses then
          stored.status.addresses else after.status.addresses
        conditions := stored.status.conditions
        provisioned := if after.status.provisioned = before.status.provisioned then
          stored.status.provisioned else after.status.provisioned } }

/-- Whether the API server takes an object in place of the stored one. -/
def accepts (new : LibvirtMachine) : Bool :=
  (!stored.deletionTimestamp || new.finalizers.all (· ∈ stored.finalizers))
  && (stored.spec.providerID.isNone || new.spec.providerID.isNone
    || new.spec.providerID == stored.spec.providerID)

/-- What is stored for an object: nothing once it is being deleted and has no
finalizer. This is the only way an object goes. -/
def stores (m : LibvirtMachine) : Option LibvirtMachine :=
  if m.deletionTimestamp && m.finalizers.isEmpty then none else some m

section MergeStatus

variable {before after stored}

theorem blank_of_wipes (h : before.wipes after = true) :
    after.status.ready = false ∧ after.status.addresses = []
      ∧ after.status.provisioned = false := by
  simpa [wipes, LibvirtMachineStatus.blank, and_assoc] using (Bool.and_eq_true_iff.mp h).1

theorem mergeStatus_of_wipes (h : before.wipes after = true) :
    (before.mergeStatus after stored).status = ⟨false, [], [], false⟩ := if_pos h

theorem wipes_eq_false_of_provisioned (h : after.status.provisioned = true) :
    before.wipes after = false := by
  simp [wipes, LibvirtMachineStatus.blank, h]

theorem mergeStatus_conditions :
    (before.mergeStatus after stored).status.conditions
      = if before.wipes after then [] else stored.status.conditions := by
  unfold mergeStatus
  split <;> rfl

theorem mergeStatus_self (h : after.status = before.status) :
    before.mergeStatus after stored = stored := by
  simp [mergeStatus, wipes, h]

/-- A flag that nobody else has written is as the reconcile leaves it. -/
theorem mergeStatus_ready (h : stored.status.ready = before.status.ready) :
    (before.mergeStatus after stored).status.ready = after.status.ready := by
  cases hw : before.wipes after with
  | true => rw [mergeStatus_of_wipes hw, (blank_of_wipes hw).1]
  | false =>
    simp only [mergeStatus, hw, Bool.false_eq_true, if_false, h]
    split
    · exact Eq.symm ‹_›
    · rfl

theorem mergeStatus_provisioned (h : stored.status.provisioned = before.status.provisioned) :
    (before.mergeStatus after stored).status.provisioned = after.status.provisioned := by
  cases hw : before.wipes after with
  | true => rw [mergeStatus_of_wipes hw, (blank_of_wipes hw).2.2]
  | false =>
    simp only [mergeStatus, hw, Bool.false_eq_true, if_false, h]
    split
    · exact Eq.symm ‹_›
    · rfl

/-- A flag that is set both in the store and by the reconcile stays set. -/
theorem mergeStatus_provisioned_of (h : stored.status.provisioned = true)
    (hafter : after.status.provisioned = true) :
    (before.mergeStatus after stored).status.provisioned = true := by
  simp only [mergeStatus, wipes_eq_false_of_provisioned hafter, Bool.false_eq_true, if_false, h,
    hafter, ite_self]

/-- A flag that is set was set before, or is set by the reconcile. -/
theorem provisioned_of_mergeStatus
    (h : (before.mergeStatus after stored).status.provisioned = true) :
    stored.status.provisioned = true
    ∨ after.status.provisioned = true ∧ before.status.provisioned = false := by
  cases hw : before.wipes after with
  | true =>
    rw [mergeStatus_of_wipes hw] at h
    cases h
  | false =>
    simp only [mergeStatus, hw, Bool.false_eq_true, if_false] at h
    split at h
    · exact Or.inl h
    · rename_i hne
      exact Or.inr ⟨h, Bool.eq_false_iff.mpr fun hb => hne (h.trans hb.symm)⟩

end MergeStatus

end LibvirtMachine

/-- **The API server**: the machine, unless it is gone, and the
`LibvirtCluster` of its cluster. -/
structure ApiState where
  machine : Option LibvirtMachine
  libvirtCluster : Option LibvirtCluster

/-- The machine is there, with the finalizer. As long as this holds the API
server will not let the object go, whoever deletes it. -/
def ApiState.Guarded (a : ApiState) : Prop :=
  ∃ m, a.machine = some m ∧ libvirtMachineFinalizer ∈ m.finalizers

/-- What the environment decides about a request: whether it fails, whether it
is carried out nevertheless, and what the objects are that are not part of the
state. A request that was carried out and reported as failed is what a lost
connection looks like. -/
structure ApiChoice where
  fault : Option String := none
  lost : Bool := false
  ownerMachine : Option Machine := none
  ownerCluster : Option Cluster := none
  credentials : Option Credentials := none
  secretValue : Option Bytes := none

namespace ApiChoice

variable {α ε : Type}

/-- The object asked for, if it is there. -/
def find (c : ApiChoice) (s : ApiState) (found : Option α) (failed : String → ε) (missing : ε) :
    Option (Except ε α × ApiState) :=
  match c.fault, found with
  | some msg, _ => some (.error (failed msg), s)
  | none, none => some (.error missing, s)
  | none, some a => some (.ok a, s)

/-- An answer that does not depend on the state. -/
def answer (c : ApiChoice) (s : ApiState) (a : α) : Option (Except GoError α × ApiState) :=
  match c.fault with
  | some msg => some (.error (.text msg), s)
  | none => some (.ok a, s)

/-- A change of the machine. -/
def change (c : ApiChoice) (s : ApiState) (f : LibvirtMachine → LibvirtMachine) :
    Option (Except ApiError Unit × ApiState) :=
  match s.machine with
  | none => some (.error .notFound, s)
  | some stored =>
    if stored.accepts (f stored) then
      match c.fault with
      | none => some (.ok (), { s with machine := (f stored).stores })
      | some msg => some (.error (.other msg),
          if c.lost then { s with machine := (f stored).stores } else s)
    else some (.error (.other "invalid"), s)

end ApiChoice

/-- **The requests to the API server.** Objects that the controller only
reads, such as the owner `Machine`, are not part of the state and may answer
differently each time. -/
def apiStep (s : ApiState) : (o : ApiOp) → ApiChoice → Option (o.Result × ApiState)
  | .getLibvirtMachine, c => c.find s s.machine .other .notFound
  | .newHelper, c => c.answer s ()
  | .getOwnerMachine _, c => c.answer s c.ownerMachine
  | .getClusterFromMetadata _, c => c.answer s c.ownerCluster
  | .getLibvirtCluster _, c => c.find s s.libvirtCluster .text (.text "not found")
  | .loadCredentials _, c => c.answer s c.credentials
  | .getSecretValue _, c => c.answer s c.secretValue
  | .patchStatusConditions before after, c => c.change s (before.mergeConditions after)
  | .patch before after, c => c.change s (before.merge after)
  | .patchStatus before after, c => c.change s (before.mergeStatus after)

/-- What the requests mean, over every choice of the environment. -/
def apiSem (s : ApiState) (o : ApiOp) (r : o.Result) (s' : ApiState) : Prop :=
  ∃ c, apiStep s o c = some (r, s')

/-! ## What a request does -/

/-- What a request makes of the machine, if it is one that changes it. -/
def ApiOp.edit : ApiOp → Option (LibvirtMachine → LibvirtMachine)
  | .patchStatusConditions before after => some (before.mergeConditions after)
  | .patch before after => some (before.merge after)
  | .patchStatus before after => some (before.mergeStatus after)
  | _ => none

/-- No request renames the machine. -/
theorem ApiOp.edit_name {o : ApiOp} {f : LibvirtMachine → LibvirtMachine} (h : o.edit = some f)
    (m : LibvirtMachine) : (f m).name = m.name ∧ (f m).nmspace = m.nmspace := by
  cases o <;> cases h <;> exact ⟨rfl, rfl⟩

/-- No request takes back that the machine is being deleted, or makes it so. -/
theorem ApiOp.edit_deletionTimestamp {o : ApiOp} {f : LibvirtMachine → LibvirtMachine}
    (h : o.edit = some f) (m : LibvirtMachine) :
    (f m).deletionTimestamp = m.deletionTimestamp := by
  cases o <;> cases h <;> rfl

theorem LibvirtMachine.stores_of_mem {m : LibvirtMachine} {finalizer : String}
    (h : finalizer ∈ m.finalizers) : m.stores = some m := by
  have hne : m.finalizers ≠ [] := List.ne_nil_of_mem h
  simp [LibvirtMachine.stores, hne]

theorem LibvirtMachine.eq_of_stores {m m' : LibvirtMachine} (h : m.stores = some m') : m' = m := by
  unfold LibvirtMachine.stores at h
  split at h
  · cases h
  · exact (Option.some.inj h).symm

section Requests

variable {α ε : Type} {s s' : ApiState} {c : ApiChoice}

/-- What is read is what is stored. -/
theorem ApiChoice.find_eq_some {found : Option α} {failed : String → ε} {missing : ε}
    {r : Except ε α} (h : c.find s found failed missing = some (r, s')) :
    s' = s ∧ ∀ a, r = .ok a → found = some a := by
  unfold ApiChoice.find at h
  split at h <;> cases h <;> simp

theorem ApiChoice.answer_eq_some {a : α} {r : Except GoError α}
    (h : c.answer s a = some (r, s')) : s' = s := by
  unfold ApiChoice.answer at h
  split at h <;> cases h <;> rfl

theorem ApiChoice.change_eq_some {f : LibvirtMachine → LibvirtMachine} {r : Except ApiError Unit}
    (h : c.change s f = some (r, s')) :
    s' = s ∨ ∃ stored, s.machine = some stored ∧ stored.accepts (f stored) = true
      ∧ s' = { s with machine := (f stored).stores } := by
  unfold ApiChoice.change at h
  split at h
  · cases h
    exact Or.inl rfl
  rename_i stored hstored
  split at h
  · rename_i haccepts
    split at h
    · cases h
      exact Or.inr ⟨stored, hstored, haccepts, rfl⟩
    · cases h
      split
      · exact Or.inr ⟨stored, hstored, haccepts, rfl⟩
      · exact Or.inl rfl
  · cases h
    exact Or.inl rfl

/-- A change that succeeds is made. -/
theorem ApiChoice.change_ok {f : LibvirtMachine → LibvirtMachine}
    (h : c.change s f = some (.ok (), s')) {stored : LibvirtMachine}
    (hstored : s.machine = some stored) : s'.machine = (f stored).stores := by
  unfold ApiChoice.change at h
  rw [hstored] at h
  dsimp only at h
  split at h
  · split at h
    · cases h
      rfl
    · cases h
  · cases h

/-- **A request leaves everything as it is, or it is a patch and the machine
is stored as it asks for.** The answer does not come into it, since a request
that failed may have been carried out. -/
theorem apiSem_cases {o : ApiOp} {r : o.Result} (h : apiSem s o r s') :
    s' = s ∨ ∃ f stored, o.edit = some f ∧ s.machine = some stored
      ∧ stored.accepts (f stored) = true ∧ s' = { s with machine := (f stored).stores } := by
  obtain ⟨c, hc⟩ := h
  cases o with
  | getLibvirtMachine => exact Or.inl (ApiChoice.find_eq_some hc).1
  | getLibvirtCluster key => exact Or.inl (ApiChoice.find_eq_some hc).1
  | newHelper => exact Or.inl (ApiChoice.answer_eq_some hc)
  | getOwnerMachine m => exact Or.inl (ApiChoice.answer_eq_some hc)
  | getClusterFromMetadata machine => exact Or.inl (ApiChoice.answer_eq_some hc)
  | loadCredentials libvirtCluster => exact Or.inl (ApiChoice.answer_eq_some hc)
  | getSecretValue key => exact Or.inl (ApiChoice.answer_eq_some hc)
  | patchStatusConditions before after
  | patch before after
  | patchStatus before after =>
    refine (ApiChoice.change_eq_some hc).imp_right ?_
    rintro ⟨stored, h⟩
    exact ⟨_, stored, rfl, h⟩

theorem apiSem_getLibvirtMachine {r : Except ApiError LibvirtMachine}
    (h : apiSem s .getLibvirtMachine r s') : s' = s ∧ ∀ m, r = .ok m → s.machine = some m :=
  ApiChoice.find_eq_some h.choose_spec

theorem apiSem_getLibvirtCluster {key : NamespacedName} {r : Except GoError LibvirtCluster}
    (h : apiSem s (.getLibvirtCluster key) r s') :
    s' = s ∧ ∀ c, r = .ok c → s.libvirtCluster = some c :=
  ApiChoice.find_eq_some h.choose_spec

end Requests

end LibvirtProvider

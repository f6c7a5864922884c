import LibvirtProvider.Pause

/-!
# After a deletion

A controller that has cleaned up removes its finalizer. The object may stay
for as long as others have theirs on it, and it is reconciled again whenever it
changes. Nothing is left to do then.

Both controllers enter `reconcileDelete` again, though. The machine controller
asks the provider to delete the machine once more, and both take it for an
error that there is no finalizer to remove. A later reconcile is quiet exactly
if it does not get there because it finds no owner
(`finished_deletion_quiet_iff`).
-/

namespace LibvirtProvider

open Interaction

/-! ## Objects with a finalizer -/

/-- A reconcile: its calls and its result, and the object as it was stored
before and after it. -/
structure Reconciled (σ : Signature) (O : Type) where
  events : List (Event σ)
  outcome : Outcome
  before : Option O
  after : Option O

/-- **The deletion of objects of a kind**: whether one is being deleted, its
finalizers, and the finalizer of the controller. With this both controllers
are spoken of in the same words. -/
structure Deletion (O : Type) where
  deleting : O → Bool
  finalizers : O → List String
  finalizer : String

/-- The deletion of machines. -/
def machineDeletion : Deletion LibvirtMachine where
  deleting m := m.deletionTimestamp
  finalizers m := m.finalizers
  finalizer := libvirtMachineFinalizer

/-- The deletion of clusters. -/
def clusterDeletion : Deletion LibvirtClusterObject where
  deleting c := c.deletionTimestamp
  finalizers c := c.finalizers
  finalizer := libvirtClusterFinalizer

namespace Deletion

variable {O : Type} (d : Deletion O) {o o' : Option O}

/-- The object, if it is there, is being deleted. -/
def Deleting (o : Option O) : Prop := ∀ a, o = some a → d.deleting a = true

/-- **The controller is done with the object**, if it is there: it is being
deleted, and the controller's finalizer is off. Others may keep it for as long
as they like. -/
def Finished (o : Option O) : Prop :=
  ∀ a, o = some a → d.deleting a = true ∧ d.finalizer ∉ d.finalizers a

/-- What others can do to an object. Of one that is being deleted they can
remove finalizers, and so make it vanish, but they cannot add any. -/
def Outside (o o' : Option O) : Prop :=
  ∀ a', o' = some a' → ∃ a, o = some a
    ∧ (d.deleting a = true → d.deleting a' = true ∧ d.finalizers a' ⊆ d.finalizers a)

/-- **A reconcile finishes a deletion**: it removes the finalizer from an
object that is being deleted, and the object is still there. -/
def Finishes {σ : Signature} (v : Reconciled σ O) : Prop :=
  (∃ a, v.before = some a ∧ d.deleting a = true ∧ d.finalizer ∈ d.finalizers a)
  ∧ ∃ a', v.after = some a' ∧ d.finalizer ∉ d.finalizers a'

variable {d}

theorem Finished.outside (h : d.Finished o) (hout : d.Outside o o') : d.Finished o' := by
  intro a' ha'
  obtain ⟨a, ha, hkeeps⟩ := hout a' ha'
  obtain ⟨hdel, hfin⟩ := h a ha
  obtain ⟨hdel', hsub⟩ := hkeeps hdel
  exact ⟨hdel', fun hmem => hfin (hsub hmem)⟩

/-- A deletion that is finished, where the reconcile does not take it back. -/
theorem Finishes.finished {σ : Signature} {v : Reconciled σ O} (h : d.Finishes v)
    (hkeeps : d.Deleting v.before → d.Deleting v.after) : d.Finished v.after := by
  obtain ⟨⟨a, ha, hdel, -⟩, a', ha', hfin⟩ := h
  have hdel' : d.Deleting v.after := hkeeps fun b hb => by
    cases ha.symm.trans hb
    exact hdel
  intro b hb
  cases ha'.symm.trans hb
  exact ⟨hdel' a' ha', hfin⟩

end Deletion

/-! ## Machines -/

/-- The owner was looked for, and the answer was that there is none. For the
`Machine` this is so where the object has no reference to one; a `Machine` that
is referred to and gone comes as an error, and so does a missing `Cluster`. Of
the second answer nil is not what the helper gives, but it is what the code
looks for. -/
def foundNoOwner : Event ControllerSig → Bool
  | ⟨.api (.getOwnerMachine _), r⟩ =>
    match (r : Except GoError (Option Machine)) with
    | .ok none => true
    | _ => false
  | ⟨.api (.getClusterFromMetadata _), r⟩ =>
    match (r : Except GoError (Option Cluster)) with
    | .ok none => true
    | _ => false
  | _ => false

namespace MachineReconciled

variable (v : Reconciled ControllerSig LibvirtMachine)

/-- **Nothing happens**: no error, no call that changes the host, and the
object is what it was. -/
def Quiet : Prop :=
  v.outcome.err = none ∧ (∀ ev ∈ v.events, ControllerOp.asks ev.1 = false) ∧ v.after = v.before

/-- The reconcile found no owner. -/
def Unowned : Prop := ∃ ev ∈ v.events, foundNoOwner ev = true

end MachineReconciled

section Machine

variable {s s' : Attended} {tr : List (Event ControllerSig)} {m : LibvirtMachine}

/-- No call takes a deletion back. -/
theorem attendedSem_deleting {o : ControllerSig.Op} {r : ControllerSig.Ans o}
    (h : attendedSem s o r s') (hs : machineDeletion.Deleting s.api.machine) :
    machineDeletion.Deleting s'.api.machine := by
  match o with
  | .provider o =>
    rw [(attendedSem_provider h).1]
    exact hs
  | .api o =>
    rcases apiSem_cases (attendedSem_api h).1 with heq | ⟨f, stored, hf, hstored, -, heq⟩
    · rw [heq]
      exact hs
    · rw [heq]
      intro m' hm'
      rw [LibvirtMachine.eq_of_stores hm']
      exact (ApiOp.edit_deletionTimestamp hf stored).trans (hs stored hstored)

/-- What is gone stays away. -/
theorem attendedSem_gone {o : ControllerSig.Op} {r : ControllerSig.Ans o}
    (h : attendedSem s o r s') (hs : s.api.machine = none) : s'.api.machine = none := by
  match o with
  | .provider o =>
    rw [(attendedSem_provider h).1]
    exact hs
  | .api o =>
    rcases apiSem_cases (attendedSem_api h).1 with heq | ⟨f, stored, -, hstored, -⟩
    · rw [heq]
      exact hs
    · cases hs.symm.trans hstored

/-- The machine is not missing where it is there. -/
theorem attendedSem_found {r : Except ApiError LibvirtMachine}
    (h : attendedSem s (.api .getLibvirtMachine) r s') (hm : s.api.machine = some m) :
    r = .ok m ∨ ∃ msg, r = .error (.other msg) := by
  obtain ⟨c, hc⟩ := (attendedSem_api h).1
  change c.find s.api s.api.machine _ _ = _ at hc
  unfold ApiChoice.find at hc
  rw [hm] at hc
  cases hfault : c.fault with
  | some msg =>
    rw [hfault] at hc
    exact Or.inr ⟨msg, (Prod.mk.inj (Option.some.inj hc)).1.symm⟩
  | none =>
    rw [hfault] at hc
    exact Or.inl (Prod.mk.inj (Option.some.inj hc)).1.symm

/-- A reconcile is quiet exactly if it finds no owner, by its calls and its
error. -/
def QuietIffUnowned (tr : List (Event ControllerSig)) (err : Option GoError) : Prop :=
  (err = none ∧ ∀ ev ∈ tr, ControllerOp.asks ev.1 = false) ↔ ∃ ev ∈ tr, foundNoOwner ev = true

/-- A call that neither changes anything nor finds that there is no owner. -/
theorem quietIffUnowned_cons {ev : Event ControllerSig} {err : Option GoError}
    (hasks : ControllerOp.asks ev.1 = false) (hfound : foundNoOwner ev = false) :
    QuietIffUnowned (ev :: tr) err ↔ QuietIffUnowned tr err := by
  simp [QuietIffUnowned, hasks, hfound]

/-- The call at which a reconcile ends with an error. -/
theorem quietIffUnowned_error {ev : Event ControllerSig} {err : GoError}
    (hfound : foundNoOwner ev = false) : QuietIffUnowned [ev] (some err) := by
  simp [QuietIffUnowned, hfound]

/-- The call that finds that there is no owner. -/
theorem quietIffUnowned_unowned {ev : Event ControllerSig}
    (hasks : ControllerOp.asks ev.1 = false) (hfound : foundNoOwner ev = true) :
    QuietIffUnowned [ev] none := by
  simp [QuietIffUnowned, hasks, hfound]

theorem MachineReconciled.quiet_iff_unowned {v : Reconciled ControllerSig LibvirtMachine}
    (h : v.after = v.before) :
    (Quiet v ↔ Unowned v) ↔ QuietIffUnowned v.events v.outcome.err := by
  simp [Quiet, Unowned, QuietIffUnowned, h]

/-- **`Reconcile` of a machine that is finished**, from the object read to the
patch: it comes back as it was, and with an error unless there is no owner. -/
theorem reconcileMachine_finished {after : LibvirtMachine} {out : Outcome}
    (h : Prog.Exec attendedSem (reconcileMachine m) s tr s' (after, out))
    (hm : machineDeletion.Finished (some m)) :
    after = m ∧ QuietIffUnowned tr out.err := by
  obtain ⟨hdel, hfin⟩ := hm m rfl
  change m.deletionTimestamp = true at hdel
  change libvirtMachineFinalizer ∉ m.finalizers at hfin
  obtain ⟨err | _ | ownerMachine, s₁, tr₁, -, rfl, h⟩ := h
  · obtain ⟨rfl, -, heq⟩ := h
    cases heq
    exact ⟨rfl, quietIffUnowned_error rfl⟩
  · obtain ⟨rfl, -, heq⟩ := h
    cases heq
    exact ⟨rfl, quietIffUnowned_unowned rfl rfl⟩
  rw [quietIffUnowned_cons (by rfl) (by rfl)]
  obtain ⟨err | _ | ownerCluster, s₂, tr₂, -, rfl, h⟩ := h
  · obtain ⟨rfl, -, heq⟩ := h
    cases heq
    exact ⟨rfl, quietIffUnowned_error rfl⟩
  · obtain ⟨rfl, -, heq⟩ := h
    cases heq
    exact ⟨rfl, quietIffUnowned_unowned rfl rfl⟩
  rw [quietIffUnowned_cons (by rfl) (by rfl)]
  obtain ⟨err | libvirtCluster, s₃, tr₃, -, rfl, h⟩ := h
  · obtain ⟨rfl, -, heq⟩ := h
    cases heq
    exact ⟨rfl, quietIffUnowned_error rfl⟩
  rw [quietIffUnowned_cons (by rfl) (by rfl)]
  obtain ⟨err | creds, s₄, tr₄, -, rfl, h⟩ := h
  · obtain ⟨rfl, -, heq⟩ := h
    cases heq
    exact ⟨rfl, quietIffUnowned_error rfl⟩
  rw [quietIffUnowned_cons (by rfl) (by rfl)]
  -- from here on the machine is deleted once more
  simp only [hdel, if_true] at h
  obtain ⟨err | _, s₅, tr₅, -, rfl, h⟩ := h
  · obtain ⟨rfl, -, heq⟩ := h
    cases heq
    exact ⟨rfl, quietIffUnowned_error rfl⟩
  · change Prog.Exec attendedSem (if _ then _ else _) _ _ _ _ at h
    rw [if_neg hfin] at h
    obtain ⟨rfl, -, heq⟩ := h
    cases heq
    exact ⟨rfl, quietIffUnowned_error rfl⟩

/-- **A reconcile of a machine that is finished** leaves it as it is, and is
quiet exactly if it finds no owner. In the other case it has asked for a
deletion, or has failed before it could. -/
theorem reconcile_finished {outcome : Outcome}
    (h : Prog.Exec attendedSem reconcile s tr s' outcome) (hm : s.api.machine = some m)
    (hfinished : machineDeletion.Finished s.api.machine) :
    s'.api.machine = s.api.machine
    ∧ (MachineReconciled.Quiet ⟨tr, outcome, s.api.machine, s'.api.machine⟩
      ↔ MachineReconciled.Unowned ⟨tr, outcome, s.api.machine, s'.api.machine⟩) := by
  suffices hkeeps : s'.api = s.api ∧ QuietIffUnowned tr outcome.err by
    have hmachine : s'.api.machine = s.api.machine := congrArg ApiState.machine hkeeps.1
    exact ⟨hmachine, (MachineReconciled.quiet_iff_unowned hmachine).mpr hkeeps.2⟩
  obtain ⟨r, s₁, tr₁, hget, rfl, h⟩ := h
  have hs₁ : s₁.api = s.api := attendedSem_reads (o := .api .getLibvirtMachine) rfl hget
  rcases attendedSem_found hget hm with rfl | ⟨msg, rfl⟩
  swap
  · obtain ⟨rfl, rfl, rfl⟩ := h
    exact ⟨hs₁, quietIffUnowned_error rfl⟩
  rw [quietIffUnowned_cons (by rfl) (by rfl)]
  obtain ⟨r, s₂, tr₂, hnew, rfl, h⟩ := h
  have hs₂ : s₂.api = s.api :=
    (attendedSem_reads (o := .api .newHelper) rfl hnew).trans hs₁
  match r with
  | .error err =>
    obtain ⟨rfl, rfl, rfl⟩ := h
    exact ⟨hs₂, quietIffUnowned_error rfl⟩
  | .ok () =>
    rw [quietIffUnowned_cons (by rfl) (by rfl)]
    change Prog.Exec _ (reconcileMachine m >>= _) _ _ _ _ at h
    obtain ⟨⟨after, out⟩, s₃, tr₃, tr₄, rfl, hwork, h⟩ := Prog.exec_bind.mp h
    obtain ⟨rfl, hquiet⟩ := reconcileMachine_finished hwork (hm ▸ hfinished)
    have hs₃ : s₃.api = s₂.api := (reconcileMachine_inner after).keeps Attended.api
      (fun s o r s' ho hs => attendedSem_reads ho.reads hs) hwork
    change Prog.Exec _ (helperPatch after after >>= _) _ _ _ _ at h
    rw [helperPatch_self] at h
    obtain ⟨rfl, rfl, rfl⟩ := h
    exact ⟨hs₃.trans hs₂, by simpa using hquiet⟩

end Machine

/-! ## Clusters -/

/-- The owner was looked for, and there is none. -/
def foundNoCluster : Event ClusterSig → Bool
  | ⟨.getOwnerCluster _, r⟩ =>
    match (r : Except GoError (Option OwnerCluster)) with
    | .ok none => true
    | _ => false
  | _ => false

namespace ClusterReconciled

variable (v : Reconciled ClusterSig LibvirtClusterObject)

/-- **Nothing happens**: no error, no call of the provider, and the object is
what it was. -/
def Quiet : Prop :=
  v.outcome.err = none ∧ (∀ ev ∈ v.events, ∀ cfg, ev.1 ≠ .ensureInfra cfg) ∧ v.after = v.before

/-- The reconcile found no owner, and its patch helper could be made. -/
def Unowned : Prop :=
  (∃ ev ∈ v.events, foundNoCluster ev = true) ∧ helperMade v.events = true

end ClusterReconciled

section Cluster

variable {s s' : Option LibvirtClusterObject} {tr : List (Event ClusterSig)}
  {c : LibvirtClusterObject}

theorem ClusterChoice.change_eq_some {choice : ClusterChoice}
    {f : LibvirtClusterObject → LibvirtClusterObject} {r : Except ApiError Unit}
    (h : choice.change s f = some (r, s')) :
    s' = s ∨ ∃ stored, s = some stored ∧ s' = (f stored).stores := by
  unfold ClusterChoice.change at h
  split at h
  · cases h
    exact Or.inl rfl
  rename_i stored
  split at h
  · split at h
    · cases h
      exact Or.inr ⟨stored, rfl, rfl⟩
    · cases h
      split
      · exact Or.inr ⟨stored, rfl, rfl⟩
      · exact Or.inl rfl
  · cases h
    exact Or.inl rfl

/-- No call takes a deletion back. -/
theorem clusterSem_deleting {o : ClusterSig.Op} {r : ClusterSig.Ans o} (h : clusterSem s o r s')
    (hs : clusterDeletion.Deleting s) : clusterDeletion.Deleting s' := by
  have hchange {f : LibvirtClusterObject → LibvirtClusterObject} {choice : ClusterChoice}
      {r : Except ApiError Unit} (h : choice.change s f = some (r, s'))
      (hf : ∀ c, (f c).deletionTimestamp = c.deletionTimestamp) :
      clusterDeletion.Deleting s' := by
    rcases ClusterChoice.change_eq_some h with rfl | ⟨stored, rfl, rfl⟩
    · exact hs
    · intro c hc
      unfold LibvirtClusterObject.stores at hc
      split at hc
      · cases hc
      · cases hc
        exact (hf stored).trans (hs stored rfl)
  cases o with
  | patchStatusConditions before after => exact hchange h.choose_spec fun _ => rfl
  | patch before after => exact hchange h.choose_spec fun _ => rfl
  | patchStatus before after => exact hchange h.choose_spec fun _ => rfl
  | getLibvirtCluster | getOwnerCluster | newHelper | loadCredentials | ensureInfra =>
    rw [clusterSem_keeps rfl h]
    exact hs

/-- What is gone stays away. -/
theorem clusterSem_gone {o : ClusterSig.Op} {r : ClusterSig.Ans o} (h : clusterSem none o r s') :
    s' = none := by
  cases o with
  | patchStatusConditions | patch | patchStatus =>
    obtain ⟨choice, hc⟩ := h
    cases hc
    rfl
  | getLibvirtCluster | getOwnerCluster | newHelper | loadCredentials | ensureInfra =>
    exact clusterSem_keeps rfl h

/-- The cluster is not missing where it is there. -/
theorem clusterSem_found {r : Except ApiError LibvirtClusterObject}
    (h : clusterSem (some c) .getLibvirtCluster r s') :
    r = .ok c ∨ ∃ msg, r = .error (.other msg) := by
  obtain ⟨choice, hc⟩ := h
  change choice.find (some c) = _ at hc
  unfold ClusterChoice.find at hc
  cases hfault : choice.fault with
  | some msg =>
    rw [hfault] at hc
    exact Or.inr ⟨msg, (Prod.mk.inj (Option.some.inj hc)).1.symm⟩
  | none =>
    rw [hfault] at hc
    exact Or.inl (Prod.mk.inj (Option.some.inj hc)).1.symm

/-- **A reconcile of a cluster that is finished** leaves it as it is, and is
quiet exactly if it finds no owner. The error is the one for a finalizer that
is not there. -/
theorem reconcile_cluster_finished {outcome : Outcome}
    (h : Prog.Exec clusterSem LibvirtClusterReconciler.reconcile (some c) tr s' outcome)
    (hfinished : clusterDeletion.Finished (some c)) :
    s' = some c
    ∧ (ClusterReconciled.Quiet ⟨tr, outcome, some c, s'⟩
      ↔ ClusterReconciled.Unowned ⟨tr, outcome, some c, s'⟩) := by
  obtain ⟨hdel, hfin⟩ := hfinished c rfl
  change c.deletionTimestamp = true at hdel
  change libvirtClusterFinalizer ∉ c.finalizers at hfin
  unfold ClusterReconciled.Quiet ClusterReconciled.Unowned
  obtain ⟨r, s₁, tr₁, hget, rfl, h⟩ := h
  obtain rfl := clusterSem_keeps rfl hget
  rcases clusterSem_found hget with rfl | ⟨msg, rfl⟩
  swap
  · obtain ⟨rfl, rfl, rfl⟩ := h
    simp [foundNoCluster]
  obtain ⟨r, s₂, tr₂, howner, rfl, h⟩ := h
  obtain rfl := clusterSem_keeps rfl howner
  match r with
  | .error err =>
    obtain ⟨rfl, rfl, rfl⟩ := h
    simp [foundNoCluster]
  | .ok owner =>
  obtain ⟨r, s₃, tr₃, hnew, rfl, h⟩ := h
  obtain rfl := clusterSem_keeps rfl hnew
  match r with
  | .error err =>
    obtain ⟨rfl, rfl, rfl⟩ := h
    simp [helperMade, Except.isOk, Except.toBool]
  | .ok () =>
    change Prog.Exec _ (LibvirtClusterReconciler.reconcileCluster c owner >>= _) _ _ _ _ at h
    cases owner with
    | none =>
      change Prog.Exec _ (LibvirtClusterReconciler.helperPatch c c >>= _) _ _ _ _ at h
      rw [LibvirtClusterReconciler.helperPatch_self] at h
      obtain ⟨rfl, rfl, rfl⟩ := h
      refine ⟨rfl, iff_of_true ⟨rfl, ?_, rfl⟩
        ⟨⟨_, List.mem_cons_of_mem _ List.mem_cons_self, rfl⟩, rfl⟩⟩
      exact List.forall_mem_cons.mpr ⟨(fun _ h => nomatch h), List.forall_mem_cons.mpr
        ⟨(fun _ h => nomatch h), List.forall_mem_singleton.mpr fun _ h => nomatch h⟩⟩
    | some owner =>
      change Prog.Exec _ (LibvirtClusterReconciler.reconcileOwned c owner >>= _) _ _ _ _ at h
      unfold LibvirtClusterReconciler.reconcileOwned LibvirtClusterReconciler.reconcileDelete at h
      dsimp only at h
      rw [if_pos hdel, if_neg hfin] at h
      change Prog.Exec _ (LibvirtClusterReconciler.helperPatch c c >>= _) _ _ _ _ at h
      rw [LibvirtClusterReconciler.helperPatch_self] at h
      obtain ⟨rfl, rfl, rfl⟩ := h
      simp [foundNoCluster]

end Cluster

/-! ## Both controllers -/

/-- A reconcile of one of the controllers. -/
inductive Reconciliation where
  | machine (v : Reconciled ControllerSig LibvirtMachine)
  | cluster (v : Reconciled ClusterSig LibvirtClusterObject)

namespace Reconciliation

/-- The deletion of the object is finished. -/
def Finishes : Reconciliation → Prop
  | machine v => machineDeletion.Finishes v
  | cluster v => clusterDeletion.Finishes v

/-- Nothing happens. -/
def Quiet : Reconciliation → Prop
  | machine v => MachineReconciled.Quiet v
  | cluster v => ClusterReconciled.Quiet v

/-- The object is found to have no owner. -/
def Unowned : Reconciliation → Prop
  | machine v => MachineReconciled.Unowned v
  | cluster v => ClusterReconciled.Unowned v

/-- Another reconcile of the same object, which is still there. -/
def Again : Reconciliation → Reconciliation → Prop
  | machine _, machine v => v.before.isSome = true
  | cluster _, cluster v => v.before.isSome = true
  | _, _ => False

end Reconciliation

/-- **The steps of the two controllers**: a reconcile with any answers, or
what others can do to the objects. What is being deleted stays so, by the
rules of the API server. -/
inductive DeletionStep (s : Objects) : Option Reconciliation → Objects → Prop where
  | machine {tr : List (Event ControllerSig)} {s₁ : Attended} {outcome : Outcome}
      (h : Prog.Exec attendedSem reconcile ⟨s.api, {}⟩ tr s₁ outcome) :
      DeletionStep s (some (.machine ⟨tr, outcome, s.machine, s₁.api.machine⟩))
        { s with machine := s₁.api.machine }
  | cluster {tr : List (Event ClusterSig)} {c : Option LibvirtClusterObject} {outcome : Outcome}
      (h : Prog.Exec clusterSem LibvirtClusterReconciler.reconcile s.cluster tr c outcome) :
      DeletionStep s (some (.cluster ⟨tr, outcome, s.cluster, c⟩)) { s with cluster := c }
  | outside {s' : Objects} (hmachine : machineDeletion.Outside s.machine s'.machine)
      (hcluster : clusterDeletion.Outside s.cluster s'.cluster) : DeletionStep s none s'

namespace Reconciliation

/-- The object that a reconcile was about, as far as it is there, is
finished. -/
def Done (v : Reconciliation) (s : Objects) : Prop :=
  match v with
  | machine _ => machineDeletion.Finished s.machine
  | cluster _ => clusterDeletion.Finished s.cluster

/-- What a reconcile finishes is finished. -/
theorem Finishes.done {s s' : Objects} {v : Reconciliation} (hv : v.Finishes)
    (h : DeletionStep s (some v) s') : v.Done s' := by
  cases h with
  | machine h =>
    refine Deletion.Finishes.finished hv fun hdel => ?_
    exact Prog.Exec.invariant (I := fun s : Attended => machineDeletion.Deleting s.api.machine)
      (fun _ _ _ _ hs hsem => attendedSem_deleting hsem hs) hdel h
  | cluster h =>
    refine Deletion.Finishes.finished hv fun hdel => ?_
    exact Prog.Exec.invariant (I := clusterDeletion.Deleting)
      (fun _ _ _ _ hs hsem => clusterSem_deleting hsem hs) hdel h

/-- **A step leaves a finished object finished**, and a reconcile of it is
quiet exactly if it finds no owner. -/
theorem Done.step {s s' : Objects} {v : Reconciliation} {l : Option Reconciliation} (hv : v.Done s)
    (h : DeletionStep s l s') :
    v.Done s' ∧ ∀ w, l = some w → v.Again w → (w.Quiet ↔ w.Unowned) := by
  cases h with
  | outside hmachine hcluster =>
    refine ⟨?_, fun w hw => nomatch hw⟩
    match v with
    | .machine _ => exact Deletion.Finished.outside hv hmachine
    | .cluster _ => exact Deletion.Finished.outside hv hcluster
  | @machine tr s₁ outcome h =>
    match v with
    | .cluster _ =>
      refine ⟨hv, fun w hw hagain => ?_⟩
      cases hw
      exact hagain.elim
    | .machine _ =>
      cases hm : s.machine with
      | none =>
        have hgone : s₁.api.machine = none := Prog.Exec.invariant
          (I := fun s : Attended => s.api.machine = none)
          (fun _ _ _ _ hs hsem => attendedSem_gone hsem hs) hm h
        refine ⟨fun m' hm' => ?_, fun w hw hagain => ?_⟩
        · cases hgone.symm.trans hm'
        · cases hw
          cases hagain
      | some m =>
        obtain ⟨heq, hquiet⟩ := reconcile_finished h hm hv
        refine ⟨?_, fun w hw _ => ?_⟩
        · show machineDeletion.Finished s₁.api.machine
          rw [heq]
          exact hv
        · cases hw
          rw [← hm]
          exact hquiet
  | @cluster tr c' outcome h =>
    match v with
    | .machine _ =>
      refine ⟨hv, fun w hw hagain => ?_⟩
      cases hw
      exact hagain.elim
    | .cluster _ =>
      cases hc : s.cluster with
      | none =>
        rw [hc] at h
        have hgone : c' = none := Prog.Exec.invariant (I := (· = none))
          (fun _ _ _ _ hs hsem => clusterSem_gone (hs ▸ hsem)) rfl h
        refine ⟨fun a ha => ?_, fun w hw hagain => ?_⟩
        · cases hgone.symm.trans ha
        · cases hw
          cases hagain
      | some c =>
        change clusterDeletion.Finished s.cluster at hv
        rw [hc] at h hv
        obtain ⟨rfl, hquiet⟩ := reconcile_cluster_finished h hv
        refine ⟨hv, fun w hw _ => ?_⟩
        cases hw
        exact hquiet

end Reconciliation

/-- **Finishing a deletion is repeatable** exactly where there is no owner. Once
a reconcile has removed its controller's finalizer from an object that is being
deleted and stays: in every run that follows, all reconciles of the object as
long as it is there are quiet, exactly if each of them is answered that the
object has no owner. Everywhere else `reconcileDelete` is reached again, and it
takes it for a failure that there is no finalizer to remove. -/
theorem finished_deletion_quiet_iff {s s₁ s₂ : Objects} {v : Reconciliation}
    {vs : List (Option Reconciliation)}
    (hstep : DeletionStep s (some v) s₁) (hv : v.Finishes) (hrun : Run DeletionStep s₁ vs s₂) :
    (∀ w, some w ∈ vs → v.Again w → w.Quiet) ↔ ∀ w, some w ∈ vs → v.Again w → w.Unowned := by
  have hall := hrun.forall_mem (I := v.Done)
    (P := fun l => ∀ w, l = some w → v.Again w → (w.Quiet ↔ w.Unowned))
    (fun _ _ _ hdone h => hdone.step h) (hv.done hstep)
  exact forall₃_congr fun w hw hagain => hall.2 _ hw w rfl hagain

/-- One reconcile of a machine with given answers. -/
def reconciledOn (m : LibvirtMachine) (c : SystemChoice) :
    Option (Reconciled ControllerSig LibvirtMachine) :=
  (Prog.runWith attendedStep c reconcile ⟨⟨some m, some sampleCluster⟩, {}⟩ []).map fun r =>
    ⟨r.1, r.2.2, some m, r.2.1.api.machine⟩

theorem step_of_reconciledOn {m : LibvirtMachine} {c : SystemChoice}
    {v : Reconciled ControllerSig LibvirtMachine} (h : reconciledOn m c = some v) :
    v.before = some m
    ∧ DeletionStep ⟨some m, some sampleClusterObject⟩ (some (.machine v))
      ⟨v.after, some sampleClusterObject⟩ := by
  obtain ⟨⟨tr, s, outcome⟩, hr, rfl⟩ := Option.map_eq_some_iff.mp h
  exact ⟨rfl, .machine (Prog.exec_of_runWith hr)⟩

/-- A machine that is being deleted and that something else has a finalizer
on. -/
def lingeringMachine : LibvirtMachine :=
  { provisionedMachine with
    deletionTimestamp := true
    finalizers := [libvirtMachineFinalizer, "backup.example.com/finalizer"] }

/-- Without the provider's finalizer. -/
def finishedMachine : LibvirtMachine := { lingeringMachine with
  finalizers := ["backup.example.com/finalizer"] }

/-- The first reconcile finishes the deletion. -/
theorem lingeringMachine_finishes :
    ∃ v, reconciledOn lingeringMachine { api := sampleAnswers } = some v
      ∧ v.after = some finishedMachine ∧ machineDeletion.Finishes v := by
  have hrun : (reconciledOn lingeringMachine { api := sampleAnswers }).map Reconciled.after
      = some (some finishedMachine) := by decide +kernel
  obtain ⟨v, hv, hafter⟩ := Option.map_eq_some_iff.mp hrun
  refine ⟨v, hv, hafter, ⟨lingeringMachine, (step_of_reconciledOn hv).1, rfl, ?_⟩,
    finishedMachine, hafter, ?_⟩
  · exact List.mem_cons_self
  · show libvirtMachineFinalizer ∉ ["backup.example.com/finalizer"]
    decide

/-- Where the object refers to no owner, the next reconcile is quiet. -/
theorem finished_deletion_quiet_orphan :
    ∃ v s₁ w s₂, DeletionStep ⟨some lingeringMachine, some sampleClusterObject⟩ (some v) s₁
      ∧ v.Finishes ∧ Run DeletionStep s₁ [some w] s₂ ∧ v.Again w ∧ w.Quiet := by
  obtain ⟨v, hv, hafter, hfinishes⟩ := lingeringMachine_finishes
  have hrun : (reconciledOn finishedMachine {}).map (fun w => w.events.any foundNoOwner)
      = some true := by decide +kernel
  obtain ⟨w, hw, hunowned⟩ := Option.map_eq_some_iff.mp hrun
  obtain ⟨-, hstep⟩ := step_of_reconciledOn hv
  obtain ⟨hbefore, hagain⟩ := step_of_reconciledOn hw
  rw [hafter] at hstep
  have hsome : w.before.isSome = true := by
    rw [hbefore]
    rfl
  refine ⟨.machine v, _, .machine w, _, hstep, hfinishes, .snoc (.nil _) hagain, hsome, ?_⟩
  refine (finished_deletion_quiet_iff hstep hfinishes (.snoc (.nil _) hagain)).mpr ?_ _
    (List.mem_singleton_self _) hsome
  intro w' hw' _
  cases List.mem_singleton.mp hw'
  exact List.any_eq_true.mp hunowned

/-- **The next reconcile deletes the machine again and fails.** Nothing was
left to be done, and as long as the other finalizer stays this is repeated at
each look. -/
theorem finished_deletion_fails :
    ∃ v s₁ w s₂, DeletionStep ⟨some lingeringMachine, some sampleClusterObject⟩ (some v) s₁
      ∧ v.Finishes ∧ Run DeletionStep s₁ [some w] s₂ ∧ v.Again w ∧ ¬ w.Quiet := by
  obtain ⟨v, hv, hafter, hfinishes⟩ := lingeringMachine_finishes
  have hrun : (reconciledOn finishedMachine { api := sampleAnswers }).map
      (fun w => (w.outcome.err.isSome, w.events.any fun ev => ControllerOp.asks ev.1))
      = some (true, true) := by decide +kernel
  obtain ⟨w, hw, heq⟩ := Option.map_eq_some_iff.mp hrun
  obtain ⟨hbefore, hagain⟩ := step_of_reconciledOn hw
  obtain ⟨-, hstep⟩ := step_of_reconciledOn hv
  rw [hafter] at hstep
  have hsome : w.before.isSome = true := by
    rw [hbefore]
    rfl
  refine ⟨.machine v, _, .machine w, _, hstep, hfinishes, .snoc (.nil _) hagain, hsome, ?_⟩
  rintro ⟨herr, -⟩
  have hfailed := (Prod.mk.inj heq).1
  rw [herr] at hfailed
  cases hfailed

end LibvirtProvider

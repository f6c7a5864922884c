import LibvirtProvider.ClusterController
import LibvirtProvider.Exits
import LibvirtProvider.Manager
import LibvirtProvider.Precedence
import LibvirtProvider.Status
import LibvirtProvider.WorkQueue

/-!
# Nobody is forgotten

A reconcile that ends without an error and without asking for another one is
the last one, unless the object is changed or something else wakes the queue.
The controllers rely on that in several places: the reconcile that adds the
finalizer stops right there, and so does the one that has created the domain.
What makes it go on is the object itself, which they have just changed.

So the question is where a controller can come to a halt. A machine that is
not due is gone, or paused and reported so, or without a cluster
(`no_machine_is_forgotten`). A cluster that is not due is gone, without an
owner, paused, or without an endpoint and reported so; in every other case its
infrastructure was found in order and it is reported ready
(`no_cluster_is_forgotten`).
-/

namespace LibvirtProvider

open Interaction

/-- A reconcile that is repeated: it failed, or asks for it. A result without
either is taken by the queue as the end of the matter. -/
def Outcome.again (outcome : Outcome) : Bool := outcome.err.isSome || outcome.requeueAfter.isSome

/-- With the error of the deferred patch: the reconcile is not repeated only
if the patch went through as well. -/
theorem Outcome.again_patched {outcome : Outcome} {err : Option GoError}
    (h : ({ outcome with err := outcome.err <|> err } : Outcome).again = false) :
    outcome.again = false ∧ err = none := by
  obtain ⟨herr, hrequeue⟩ := Bool.or_eq_false_iff.mp h
  rcases outcome with ⟨requeueAfter, _ | _⟩
  · exact ⟨hrequeue, Option.not_isSome_iff_eq_none.mp (Bool.eq_false_iff.mp herr)⟩
  · cases herr

/-! ## Machines -/

/-- What a reconcile of a machine has come across: the answer to its reading
the object, the cluster, and whether it has written something new. -/
structure Glance where
  machine : Option (Except ApiError LibvirtMachine) := none
  cluster : Option (Machine × Option Cluster) := none
  written : Bool := false

/-- The finalizers or the provider ID are changed. -/
def LibvirtMachine.rewrites (before after : LibvirtMachine) : Bool :=
  after.finalizers ≠ before.finalizers || after.spec.providerID ≠ before.spec.providerID

/-- What is reported is changed. -/
def LibvirtMachine.reports (before after : LibvirtMachine) : Bool :=
  after.status.ready ≠ before.status.ready || after.status.provisioned ≠ before.status.provisioned

/-- What it has come across after a call. A patch counts as writing something
only if it was answered without an error; one that was carried out although it
failed is an error, and repeated. -/
def Glance.next (q : Glance) : (o : ControllerSig.Op) → ControllerSig.Ans o → Glance
  | .api .getLibvirtMachine, r => { q with machine := some r }
  | .api (.getClusterFromMetadata machine), .ok c => { q with cluster := some (machine, c) }
  | .api (.patch before after), .ok _ => { q with written := q.written || before.rewrites after }
  | .api (.patchStatus before after), .ok _ =>
    { q with written := q.written || before.reports after }
  | _, _ => q

/-- What is patched is the object that was read. So a patch that is stored
differs from what was read, and the change is seen by the watch. -/
def glanceMonitor : Monitor ControllerSig Glance where
  next := Glance.next
  allows
    | q, .api (.patchStatusConditions before _) => q.machine = some (.ok before)
    | q, .api (.patch before _) => q.machine = some (.ok before)
    | q, .api (.patchStatus before _) => q.machine = some (.ok before)
    | _, _ => True

/-- **What it knows of the object**: it is the one that was read, or there is
none, and nothing new was written. This is as long as nobody has changed the
object, for then the queue is woken anyway. -/
structure Glance.Knows (q : Glance) (object : Option LibvirtMachine) : Prop where
  read : ∀ m, q.machine = some (.ok m) → object = some m
  gone : q.machine = some (.error .notFound) → object = none
  written : q.written = false

section Machine

variable {q : Glance} {m before after : LibvirtMachine}

/-- A patch that is stored changes the object. That it does is what makes the
controller come back after it has returned without asking for it. -/
theorem LibvirtMachine.merge_ne (h : before.rewrites after = true) :
    before.merge after before ≠ before := by
  intro heq
  unfold LibvirtMachine.merge at heq
  have hfin := congrArg LibvirtMachine.finalizers heq
  have hid := congrArg (fun m : LibvirtMachine => m.spec.providerID) heq
  dsimp only at hfin hid
  unfold LibvirtMachine.rewrites at h
  rcases Bool.or_eq_true_iff.mp h with h | h
  · have h := of_decide_eq_true h
    rw [if_neg h] at hfin
    exact h hfin
  · have h := of_decide_eq_true h
    rw [if_neg h] at hid
    exact h hid

theorem LibvirtMachine.mergeStatus_ne (h : before.reports after = true) :
    before.mergeStatus after before ≠ before := by
  intro heq
  have hready : (before.mergeStatus after before).status.ready = before.status.ready := by rw [heq]
  have hprovisioned : (before.mergeStatus after before).status.provisioned
      = before.status.provisioned := by rw [heq]
  rcases Bool.or_eq_true_iff.mp h with h | h
  · exact of_decide_eq_true h ((LibvirtMachine.mergeStatus_ready rfl).symm.trans hready)
  · exact of_decide_eq_true h ((LibvirtMachine.mergeStatus_provisioned rfl).symm.trans hprovisioned)

theorem LibvirtMachine.stores_ne {f : LibvirtMachine → LibvirtMachine} (h : f m ≠ m) :
    (f m).stores ≠ some m :=
  fun hstores => h (LibvirtMachine.eq_of_stores hstores).symm

/-- **A call that leaves the object as it is** keeps what is known of it. So a
patch of something new is not such a call, if it was answered without an
error. -/
theorem Glance.Knows.step {t t' : Management} {o : ControllerSig.Op} {r : ControllerSig.Ans o}
    (h : q.Knows t.api.machine) (hallows : glanceMonitor.allows q o)
    (hs : controllerSem t o r t') (hsame : t'.api.machine = t.api.machine) :
    (q.next o r).Knows t'.api.machine := by
  rw [hsame]
  cases o with
  | provider o => exact h
  | api o =>
    obtain ⟨a, ⟨c, hc⟩, rfl⟩ := controllerSem_api.mp hs
    -- a patch that changes something would have been noticed
    have hpatch {f : LibvirtMachine → LibvirtMachine} {before : LibvirtMachine}
        (hread : q.machine = some (.ok before)) (hc : c.change t.api f = some (.ok (), a)) :
        f before = before := by
      have hstored := h.read before hread
      have hafter : a.machine = (f before).stores := ApiChoice.change_ok hc hstored
      by_contra hne
      exact LibvirtMachine.stores_ne hne (hafter.symm.trans (hsame.trans hstored))
    cases o with
    | getLibvirtMachine =>
      refine ⟨fun m hm => ?_, fun hm => ?_, h.written⟩
      · exact (ApiChoice.find_eq_some hc).2 m (Option.some.inj hm)
      · cases Option.some.inj hm
        cases hmachine : t.api.machine with
        | none => rfl
        | some m =>
          simp only [apiStep, ApiChoice.find, hmachine] at hc
          split at hc
          · cases hc
          · rename_i hnone
            cases hnone
          · cases hc
    | patch before after =>
      cases r with
      | error e => exact h
      | ok _ =>
        refine ⟨h.read, h.gone, Bool.or_eq_false_iff.mpr ⟨h.written, ?_⟩⟩
        exact Bool.eq_false_iff.mpr fun hne => LibvirtMachine.merge_ne hne (hpatch hallows hc)
    | patchStatus before after =>
      cases r with
      | error e => exact h
      | ok _ =>
        refine ⟨h.read, h.gone, Bool.or_eq_false_iff.mpr ⟨h.written, ?_⟩⟩
        exact Bool.eq_false_iff.mpr fun hne => LibvirtMachine.mergeStatus_ne hne (hpatch hallows hc)
    | getClusterFromMetadata machine =>
      cases r with
      | error e => exact h
      | ok c => exact ⟨h.read, h.gone, h.written⟩
    | patchStatusConditions before after => exact h
    | newHelper => exact h
    | getOwnerMachine m => exact h
    | getLibvirtCluster key => exact h
    | loadCredentials c => exact h
    | getSecretValue key => exact h

/-! ### The program -/

/-- The same object and cluster, with more written at most. This is what the
deferred patch can do to what is known. -/
structure Glance.Grows (q q' : Glance) : Prop where
  machine : q'.machine = q.machine
  cluster : q'.cluster = q.cluster
  written : q.written = true → q'.written = true

theorem Glance.Grows.trans {q' q'' : Glance} (h : q.Grows q') (h' : q'.Grows q'') : q.Grows q'' :=
  ⟨h'.machine.trans h.machine, h'.cluster.trans h.cluster, fun hw => h'.written (h.written hw)⟩

/-- A patch, if there is something to patch. -/
theorem patchIf_glance {differs written : Bool}
    {request : ControllerM (Except ApiError Unit)} (hdiffers : written = true → differs = true)
    (h : request.Obeys glanceMonitor
      (fun q' r => q.Grows q' ∧ (r = .ok () → written = true → q'.written = true)) q) :
    (patchIf differs request).Obeys glanceMonitor
      (fun q' r => q.Grows q' ∧ (r = .ok () → written = true → q'.written = true)) q := by
  unfold patchIf
  split
  · exact h
  · rename_i hsame
    exact ⟨⟨rfl, rfl, id⟩, fun _ hw => absurd (hdiffers hw) hsame⟩

/-- Metadata and spec are patched. -/
theorem patch_glance (after : LibvirtMachine) (hq : q.machine = some (.ok before)) :
    (api (.patch before after)).Obeys glanceMonitor
      (fun q' r => q.Grows q' ∧ (r = .ok () → before.rewrites after = true → q'.written = true))
      q := by
  refine ⟨hq, fun r => ?_⟩
  cases r with
  | error e => exact ⟨⟨rfl, rfl, id⟩, fun h => (by cases h)⟩
  | ok _ =>
    exact ⟨⟨rfl, rfl, fun h => Bool.or_eq_true_iff.mpr (Or.inl h)⟩,
      fun _ h => Bool.or_eq_true_iff.mpr (Or.inr h)⟩

/-- The status is patched. -/
theorem patchStatus_glance (after : LibvirtMachine) (hq : q.machine = some (.ok before)) :
    (api (.patchStatus before after)).Obeys glanceMonitor
      (fun q' r => q.Grows q' ∧ (r = .ok () → before.reports after = true → q'.written = true))
      q := by
  refine ⟨hq, fun r => ?_⟩
  cases r with
  | error e => exact ⟨⟨rfl, rfl, id⟩, fun h => (by cases h)⟩
  | ok _ =>
    exact ⟨⟨rfl, rfl, fun h => Bool.or_eq_true_iff.mpr (Or.inl h)⟩,
      fun _ h => Bool.or_eq_true_iff.mpr (Or.inr h)⟩

/-- **The patch**: without an error, what is new has been written. For what is
reported this is said only of an object that remains, as the status of one
that is gone cannot be written. -/
theorem helperPatch_glance (hq : q.machine = some (.ok before)) :
    (helperPatch before after).Obeys glanceMonitor
      (fun q' err => q.Grows q' ∧ (err = none →
        (before.rewrites after = true → q'.written = true)
        ∧ (after.deletionTimestamp = false → before.reports after = true → q'.written = true)))
      q := by
  have hconditions : (patchIf (after.status.conditions ≠ before.status.conditions)
      (api (.patchStatusConditions before after))).Obeys glanceMonitor
      (fun q' r => q.Grows q' ∧ (r = .ok () → false = true → q'.written = true)) q :=
    patchIf_glance (fun h => (by cases h))
      ⟨hq, fun r => ⟨⟨rfl, rfl, id⟩, fun _ h => (by cases h)⟩⟩
  refine Prog.obeys_bind.mpr (hconditions.mono fun q₁ conditions h₁ => ?_)
  have hq₁ := h₁.1.machine.trans hq
  have hobject := patchIf_glance id (patch_glance after hq₁)
  refine Prog.obeys_bind.mpr (hobject.mono fun q₂ object h₂ => ?_)
  have hdiffers (h : before.reports after = true) :
      decide (after.status ≠ before.status) = true := by
    refine decide_eq_true fun hsame => ?_
    unfold LibvirtMachine.reports at h
    simp [hsame] at h
  have hstatus := patchIf_glance hdiffers (patchStatus_glance after (h₂.1.machine.trans hq₁))
  refine Prog.obeys_bind.mpr (hstatus.mono fun q₃ status h₃ => ?_)
  refine ⟨h₁.1.trans (h₂.1.trans h₃.1), fun herr => ?_⟩
  have herr := newAggregate_eq_none herr
  cases conditions with
  | error e => cases herr
  | ok _ =>
    cases object with
    | error e => cases herr
    | ok _ =>
      refine ⟨fun hw => h₃.1.written (h₂.2 rfl hw), fun hdel hw => ?_⟩
      rw [hdel] at herr
      cases status with
      | ok _ => exact h₃.2 rfl hw
      | error e => cases e <;> cases herr

/-- **Why there is nothing more to do**, once the object goes to the patch:
there is something new to write, so that the object comes back by itself; or
there is no cluster; or it is paused, and goes to the patch as not ready. -/
def Glance.Halts (m : LibvirtMachine) (q : Glance) (r : LibvirtMachine × Outcome) : Prop :=
  q.machine = some (.ok m) ∧ (r.2.again = false →
    m.rewrites r.1 = true
    ∨ (∃ machine, q.cluster = some (machine, none))
    ∨ ∃ machine cluster, q.cluster = some (machine, some cluster) ∧ isPaused cluster m = true
      ∧ m.deletionTimestamp = false ∧ r.1 = (m.withReady false).withProvisioned false)

theorem Glance.Halts.of_again {r : LibvirtMachine × Outcome} (hq : q.machine = some (.ok m))
    (h : r.2.again = true) : q.Halts m r :=
  ⟨hq, fun h' => absurd (h.symm.trans h') Bool.noConfusion⟩

section Scope

variable {scope : MachineScope} {machine : Machine}

/-- A new provider ID is something to write. -/
theorem LibvirtMachine.rewrites_providerID (hbefore : before.spec.providerID = none)
    (hafter : after.spec.providerID ≠ none) : before.rewrites after = true :=
  Bool.or_eq_true_iff.mpr (Or.inr (decide_eq_true (hbefore.symm ▸ hafter)))

/-- So is a change of the finalizers. -/
theorem LibvirtMachine.rewrites_finalizers (h : after.finalizers ≠ before.finalizers) :
    before.rewrites after = true :=
  Bool.or_eq_true_iff.mpr (Or.inl (decide_eq_true h))

theorem setProviderID_ne_none (m : LibvirtMachine) : (setProviderID m).spec.providerID ≠ none := by
  unfold setProviderID
  split
  · rename_i hid
    rw [hid]
    exact Option.some_ne_none _
  · exact Option.some_ne_none _

theorem reconcileMissing_glance (hq : q.machine = some (.ok m)) :
    (reconcileMissing scope m.withInfrastructure).Obeys glanceMonitor (Glance.Halts m) q := by
  unfold reconcileMissing
  split
  · exact .of_again hq rfl
  · rename_i hnone
    cases scope.machine.dataSecretName with
    | none => exact .of_again hq rfl
    | some name =>
      refine Prog.obeys_bind.mpr (Prog.obeys_perform_bind.mpr ⟨trivial, fun r => ?_⟩)
      rcases r with err | (_ | userData)
      · exact .of_again hq rfl
      · exact .of_again hq rfl
      refine Prog.obeys_perform_bind.mpr ⟨trivial, fun r => ?_⟩
      rcases r with err | _
      · exact .of_again hq rfl
      · exact ⟨hq, fun _ => Or.inl (LibvirtMachine.rewrites_providerID
          (Option.not_isSome_iff_eq_none.mp hnone) (setProviderID_ne_none _))⟩

theorem reconcileStopped_glance (hq : q.machine = some (.ok m)) {m' : LibvirtMachine} :
    (reconcileStopped scope m').Obeys glanceMonitor (Glance.Halts m) q := by
  refine Prog.obeys_perform_bind.mpr ⟨trivial, fun r => ?_⟩
  rcases r with err | _ <;> exact .of_again hq rfl

theorem reconcileRunning_glance (hq : q.machine = some (.ok m)) {m' : LibvirtMachine} :
    (reconcileRunning scope m').Obeys glanceMonitor (Glance.Halts m) q := by
  refine Prog.obeys_perform_bind.mpr ⟨trivial, fun r => ?_⟩
  rcases r with err | address
  · exact .of_again hq rfl
  · show Prog.Obeys _ _ _ (if address = "" then _ else _)
    split <;> exact .of_again hq rfl

theorem reconcileNormal_glance (hm : scope.libvirtMachine = m) (hq : q.machine = some (.ok m))
    (hcluster : q.cluster = some (machine, some scope.cluster))
    (hdel : m.deletionTimestamp = false) :
    (reconcileNormal scope).Obeys glanceMonitor (Glance.Halts m) q := by
  subst hm
  unfold reconcileNormal
  dsimp only
  split
  · rename_i hpaused
    exact ⟨hq, fun _ => Or.inr (Or.inr ⟨machine, scope.cluster, hcluster, hpaused, hdel, rfl⟩)⟩
  split
  · refine ⟨hq, fun _ => Or.inl (LibvirtMachine.rewrites_finalizers ?_)⟩
    exact fun h => absurd (List.append_right_eq_self.mp h) (List.cons_ne_nil _ _)
  split
  · exact .of_again hq rfl
  refine Prog.obeys_perform_bind.mpr ⟨trivial, fun r => ?_⟩
  rcases r with err | (_ | _ | _ | _)
  · exact .of_again hq rfl
  · exact reconcileMissing_glance hq
  · exact reconcileRunning_glance hq
  · exact reconcileStopped_glance hq
  · exact .of_again hq rfl

theorem reconcileDelete_glance (hm : scope.libvirtMachine = m) (hq : q.machine = some (.ok m)) :
    (reconcileDelete scope).Obeys glanceMonitor (Glance.Halts m) q := by
  subst hm
  refine Prog.obeys_perform_bind.mpr ⟨trivial, fun r => ?_⟩
  rcases r with err | _
  · exact .of_again hq rfl
  show Prog.Obeys _ _ _ (if _ then _ else _)
  split
  · rename_i hfin
    refine ⟨hq, fun _ => Or.inl (LibvirtMachine.rewrites_finalizers fun h => ?_)⟩
    have hmem : libvirtMachineFinalizer ∈ scope.libvirtMachine.removeFinalizer.finalizers :=
      h.symm ▸ hfin
    exact of_decide_eq_true (List.mem_filter.mp hmem).2 rfl
  · exact .of_again hq rfl

end Scope

/-- **Where a reconcile stops for good.** The cases are the ways out of the
source; those that return an error or ask for another reconcile are of no
concern here. -/
theorem reconcileMachine_glance (hq : q.machine = some (.ok m)) :
    (reconcileMachine m).Obeys glanceMonitor (Glance.Halts m) q := by
  refine Prog.obeys_perform_bind.mpr ⟨trivial, fun r => ?_⟩
  rcases r with err | (_ | ownerMachine)
  · exact .of_again hq rfl
  · exact .of_again hq rfl
  refine Prog.obeys_perform_bind.mpr ⟨trivial, fun r => ?_⟩
  rcases r with err | (_ | ownerCluster)
  · exact .of_again hq rfl
  · exact ⟨hq, fun _ => Or.inr (Or.inl ⟨ownerMachine, rfl⟩)⟩
  refine Prog.obeys_perform_bind.mpr ⟨trivial, fun r => ?_⟩
  rcases r with err | libvirtCluster
  · exact .of_again hq rfl
  refine Prog.obeys_perform_bind.mpr ⟨trivial, fun r => ?_⟩
  rcases r with err | creds
  · exact .of_again hq rfl
  show Prog.Obeys _ _ _ (if m.deletionTimestamp then _ else _)
  cases hdel : m.deletionTimestamp with
  | true => exact reconcileDelete_glance rfl hq
  | false => exact reconcileNormal_glance rfl hq rfl hdel

/-- **Why a reconcile that is not repeated has nothing to do**: there is no
object, or it has changed it, or it waits for somebody else. -/
def Glance.Done (q : Glance) (outcome : Outcome) : Prop :=
  outcome.again = false →
    q.machine = some (.error .notFound)
    ∨ q.written = true
    ∨ ∃ m, q.machine = some (.ok m) ∧
      ((∃ machine, q.cluster = some (machine, none))
      ∨ ∃ machine cluster, q.cluster = some (machine, some cluster) ∧ isPaused cluster m = true
        ∧ m.deletionTimestamp = false ∧ m.status.ready = false ∧ m.status.provisioned = false)

theorem reconcile_glance : reconcile.Obeys glanceMonitor Glance.Done {} := by
  refine Prog.obeys_perform_bind.mpr ⟨trivial, fun r => ?_⟩
  rcases r with err | m
  · cases err with
    | notFound => exact fun _ => Or.inl rfl
    | _ => exact fun h => absurd h Bool.noConfusion
  refine Prog.obeys_perform_bind.mpr ⟨trivial, fun r => ?_⟩
  rcases r with err | _
  · exact fun h => absurd h Bool.noConfusion
  refine Prog.obeys_bind.mpr ((reconcileMachine_glance rfl).mono fun q r hr => ?_)
  obtain ⟨after, outcome⟩ := r
  obtain ⟨hq, hr⟩ := hr
  refine Prog.obeys_bind.mpr ((helperPatch_glance hq).mono fun q' err hpatch => ?_)
  intro hagain
  obtain ⟨hquiet, rfl⟩ := Outcome.again_patched hagain
  obtain ⟨hgrows, hwritten⟩ := hpatch
  obtain ⟨hrewrites, hreports⟩ := hwritten rfl
  rcases hr hquiet with h | ⟨machine, h⟩ | ⟨machine, cluster, h, hpaused, hdel, hafter⟩
  · exact Or.inr (Or.inl (hrewrites h))
  · exact Or.inr (Or.inr ⟨m, hgrows.machine.trans hq, Or.inl ⟨machine, hgrows.cluster.trans h⟩⟩)
  -- a pause that is not reported yet is reported now
  dsimp only at hafter
  subst hafter
  cases hready : m.status.ready with
  | true =>
    exact Or.inr (Or.inl (hreports hdel (Bool.or_eq_true_iff.mpr (Or.inl (by
      rw [hready]
      rfl)))))
  | false =>
    cases hprovisioned : m.status.provisioned with
    | true =>
      exact Or.inr (Or.inl (hreports hdel (Bool.or_eq_true_iff.mpr (Or.inr (by
        rw [hprovisioned]
        rfl)))))
    | false =>
      exact Or.inr (Or.inr ⟨m, hgrows.machine.trans hq, Or.inr ⟨machine, cluster,
        hgrows.cluster.trans h, hpaused, hdel, hready, hprovisioned⟩⟩)

/-- The cluster that is recorded was answered. -/
theorem mem_of_glance_cluster {tr : List (Event ControllerSig)} {machine : Machine}
    {c : Option Cluster} (h : (glanceMonitor.after {} tr).cluster = some (machine, c)) :
    ⟨.api (.getClusterFromMetadata machine), .ok c⟩ ∈ tr := by
  obtain ⟨⟨o, r⟩, hmem, q, hq, hnext⟩ := Monitor.exists_of_after
    (P := fun q : Glance => q.cluster = some (machine, c)) (fun h => (by cases h)) h
  cases o with
  | provider o => exact absurd hnext hq
  | api o =>
    cases o with
    | getClusterFromMetadata machine' =>
      cases r with
      | error err => exact absurd hnext hq
      | ok c' =>
        cases Option.some.inj hnext
        exact hmem
    | patch before after => cases r <;> exact absurd hnext hq
    | patchStatus before after => cases r <;> exact absurd hnext hq
    | _ => exact absurd hnext hq

/-- **A machine that nobody looks at again**, after a last pass: it is gone,
or has no cluster, or is paused and reported so. What it waits for comes with
a change of an object, which wakes the queue. -/
def MachineAtRest (object : Option LibvirtMachine) (last : List (Event ControllerSig)) : Prop :=
  object = none
  ∨ ∃ m, object = some m ∧
    ((∃ machine, ⟨.api (.getClusterFromMetadata machine),
      (.ok none : Except GoError (Option Cluster))⟩ ∈ last)
    ∨ ∃ machine cluster, ⟨.api (.getClusterFromMetadata machine),
        (.ok (some cluster) : Except GoError (Option Cluster))⟩ ∈ last
      ∧ isPaused cluster m = true ∧ m.deletionTimestamp = false
      ∧ m.status.ready = false ∧ m.status.provisioned = false)

/-- **No machine is forgotten.** Whatever fails and whatever others do, a
machine that is not due is gone, has no cluster, or is paused and says so. In
particular none is left half provisioned or half deleted with nobody to come
back to it. -/
theorem no_machine_is_forgotten {env : Management → Management → Prop}
    {q₀ q : Queue ControllerSig Management} (hdue : q₀.due = true)
    (h : Relation.ReflTransGen
      (QueueStep env (fun s => s.api.machine) controllerSem reconcile Outcome.again) q₀ q)
    (hrest : q.due = false) : MachineAtRest q.state.api.machine q.last := by
  refine QueueStep.rest (fun s tr s' outcome he hagain => ?_) hdue h hrest
  have hstart : Glance.Knows {} s.api.machine :=
    ⟨fun _ h => (by cases h), fun h => (by cases h), rfl⟩
  obtain ⟨hknows, hdone⟩ := reconcile_glance.quiet he hstart fun _ _ _ _ _ => Glance.Knows.step
  rcases hdone hagain with hgone | hwritten | ⟨m, hm, ⟨machine, hcluster⟩
    | ⟨machine, cluster, hcluster, hpaused⟩⟩
  · exact Or.inl (hknows.gone hgone)
  · exact absurd (hwritten.symm.trans hknows.written) Bool.noConfusion
  · exact Or.inr ⟨m, hknows.read m hm, Or.inl ⟨machine, mem_of_glance_cluster hcluster⟩⟩
  · exact Or.inr ⟨m, hknows.read m hm, Or.inr ⟨machine, cluster, mem_of_glance_cluster hcluster,
      hpaused⟩⟩

/-- The calls of a reconcile on given choices, one list for each call. -/
def controllerStep (s : Management) (o : ControllerSig.Op) (cs : List ManagementChoice) :
    Option (ControllerSig.Ans o × Management) :=
  (Prog.runWith managerStep calm (implement o) s cs).map fun x => (x.2.2, x.2.1)

theorem controllerSem_of_controllerStep {s s' : Management} {o : ControllerSig.Op}
    {cs : List ManagementChoice} {r : ControllerSig.Ans o}
    (h : controllerStep s o cs = some (r, s')) : controllerSem s o r s' := by
  obtain ⟨x, hx, heq⟩ := Option.map_eq_some_iff.mp h
  cases heq
  exact ⟨x.1, Prog.exec_of_runWith hx⟩

/-- The machine is paused. -/
def Management.annotated (s : Management) : Management :=
  { s with api := { s.api with
    machine := s.api.machine.map fun m => { m with pausedAnnotation := true } } }

/-- A pass in which all goes well. -/
def calmPass : Queue ControllerSig Management → Option (Queue ControllerSig Management) :=
  Queue.passOn (fun s => s.api.machine) controllerStep reconcile Outcome.again [] []

/-- A machine whose domain is on the host is adopted and started, then paused;
the next pass reports it, and the one after that is the last. -/
theorem no_machine_is_forgotten_paused : ∃ q : Queue ControllerSig Management,
    Relation.ReflTransGen (QueueStep (fun s s' => s' = s.annotated) (fun s => s.api.machine)
      controllerSem reconcile Outcome.again) ⟨homeManagement, true, []⟩ q
    ∧ q.state.api.machine.isSome = true ∧ q.due = false
    ∧ MachineAtRest q.state.api.machine q.last := by
  have hrun : ((calmPass ⟨homeManagement, true, []⟩).bind fun q₁ =>
      (calmPass q₁).bind fun q₂ =>
        (calmPass (q₂.edited (fun s => s.api.machine) Management.annotated)).bind fun q₃ =>
          (calmPass q₃).map fun q => (q.state.api.machine.isSome, q.due)) = some (true, false) := by
    decide +kernel
  obtain ⟨q₁, h₁, hrun⟩ := Option.bind_eq_some_iff.mp hrun
  obtain ⟨q₂, h₂, hrun⟩ := Option.bind_eq_some_iff.mp hrun
  obtain ⟨q₃, h₃, hrun⟩ := Option.bind_eq_some_iff.mp hrun
  obtain ⟨q, h₄, hq⟩ := Option.map_eq_some_iff.mp hrun
  obtain ⟨hsome, hrest⟩ := Prod.mk.inj hq
  have hpass {q q' : Queue ControllerSig Management} (h : calmPass q = some q') :
      QueueStep (fun s s' => s' = s.annotated) (fun s => s.api.machine) controllerSem reconcile
        Outcome.again q q' :=
    .of_passOn h fun _ _ _ _ _ => controllerSem_of_controllerStep
  have hreach := ((Relation.ReflTransGen.single (hpass h₁)).tail (hpass h₂)).tail
    (.of_edited rfl) |>.tail (hpass h₃) |>.tail (hpass h₄)
  exact ⟨q, hreach, hsome, hrest, no_machine_is_forgotten rfl hreach hrest⟩

end Machine

/-! ## Clusters -/

/-- What a reconcile of a cluster has come across: the answer to its reading
the object, the owner, the infrastructure that it found in order, and whether
it has written something new. -/
structure ClusterGlance where
  cluster : Option (Except ApiError LibvirtClusterObject) := none
  owner : Option (LibvirtClusterObject × Option OwnerCluster) := none
  ensured : Option InfraConfig := none
  written : Bool := false

namespace LibvirtClusterObject

variable {before after : LibvirtClusterObject}

/-- The finalizers are changed. -/
def rewrites (before after : LibvirtClusterObject) : Bool := after.finalizers ≠ before.finalizers

/-- What is reported is changed. -/
def reports (before after : LibvirtClusterObject) : Bool :=
  after.status.ready ≠ before.status.ready || after.status.provisioned ≠ before.status.provisioned

theorem reports_eq_false (h : before.reports after = false) :
    before.status.ready = after.status.ready
      ∧ before.status.provisioned = after.status.provisioned := by
  obtain ⟨hready, hprovisioned⟩ := Bool.or_eq_false_iff.mp h
  exact ⟨(not_not.mp (of_decide_eq_false hready)).symm,
    (not_not.mp (of_decide_eq_false hprovisioned)).symm⟩

/-- A patch that is stored changes the object. -/
theorem merge_ne (h : before.rewrites after = true) : before.merge after before ≠ before := by
  intro heq
  have hne : after.finalizers ≠ before.finalizers := of_decide_eq_true h
  have hfin : (before.merge after before).finalizers = before.finalizers := by rw [heq]
  exact hne ((if_neg hne).symm.trans hfin)

theorem mergeStatus_ne (h : before.reports after = true) :
    before.mergeStatus after before ≠ before := by
  intro heq
  have hready : (before.mergeStatus after before).status.ready = before.status.ready := by rw [heq]
  have hprovisioned : (before.mergeStatus after before).status.provisioned
      = before.status.provisioned := by rw [heq]
  rcases Bool.or_eq_true_iff.mp h with h | h
  · exact of_decide_eq_true h ((mergeStatus_ready rfl).symm.trans hready)
  · exact of_decide_eq_true h ((mergeStatus_provisioned rfl).symm.trans hprovisioned)

end LibvirtClusterObject

/-- What it has come across after a call. -/
def ClusterGlance.next (q : ClusterGlance) :
    (o : ClusterSig.Op) → ClusterSig.Ans o → ClusterGlance
  | .getLibvirtCluster, r => { q with cluster := some r }
  | .getOwnerCluster c, .ok owner => { q with owner := some (c, owner) }
  | .ensureInfra cfg, .ok _ => { q with ensured := some cfg }
  | .patch before after, .ok _ => { q with written := q.written || before.rewrites after }
  | .patchStatus before after, .ok _ => { q with written := q.written || before.reports after }
  | _, _ => q

/-- What is patched is the object that was read, as for machines. -/
def clusterGlanceMonitor : Monitor ClusterSig ClusterGlance where
  next := ClusterGlance.next
  allows
    | q, .patchStatusConditions before _ => q.cluster = some (.ok before)
    | q, .patch before _ => q.cluster = some (.ok before)
    | q, .patchStatus before _ => q.cluster = some (.ok before)
    | _, _ => True

/-- **What it knows of the object**, as long as nobody has changed it: it is
the one that was read, or there is none, and nothing new was written. -/
structure ClusterGlance.Knows (q : ClusterGlance) (object : Option LibvirtClusterObject) :
    Prop where
  read : ∀ c, q.cluster = some (.ok c) → object = some c
  gone : q.cluster = some (.error .notFound) → object = none
  written : q.written = false

/-- **Where a cluster is left alone**: it has no owner, or is paused; it waits
for its endpoint, and says that it is not ready; or its infrastructure was
found in order, and it says that it is ready. -/
inductive ClusterRest (c : LibvirtClusterObject) (ensured : InfraConfig → Prop) :
    Option OwnerCluster → Prop where
  | unowned : ClusterRest c ensured none
  | paused {owner : OwnerCluster} (hdel : c.deletionTimestamp = false)
      (hpaused : LibvirtClusterReconciler.isPaused owner c = true) :
      ClusterRest c ensured (some owner)
  | noEndpoint {owner : OwnerCluster} (hdel : c.deletionTimestamp = false)
      (hfin : libvirtClusterFinalizer ∈ c.finalizers)
      (hendpoint : hasControlPlaneEndpoint owner c = false) (hready : c.status.ready = false)
      (hprovisioned : c.status.provisioned = false) : ClusterRest c ensured (some owner)
  | ready {owner : OwnerCluster} (hdel : c.deletionTimestamp = false)
      (hfin : libvirtClusterFinalizer ∈ c.finalizers) (creds : Option Credentials)
      (hensured : ensured { newInfraConfig c with credentials := creds })
      (hready : c.status.ready = true) (hprovisioned : c.status.provisioned = true) :
      ClusterRest c ensured (some owner)

section Cluster

variable {q : ClusterGlance} {c before after : LibvirtClusterObject}
  {s s' : Option LibvirtClusterObject} {owner : Option OwnerCluster}

/-- A patch that is not noticed has changed nothing: the watch reports every
change of what is stored. -/
theorem eq_of_change {choice : ClusterChoice} {f : LibvirtClusterObject → LibvirtClusterObject}
    (h : choice.change (some before) f = some (.ok (), some before)) : f before = before := by
  unfold ClusterChoice.change at h
  dsimp only at h
  split at h
  · split at h
    · have hstores : (f before).stores = some before := congrArg Prod.snd (Option.some.inj h)
      exact (LibvirtClusterObject.eq_of_stores hstores).symm
    · cases h
  · cases h

/-- **A call that leaves the object as it is** keeps what is known of it, as
for machines. -/
theorem ClusterGlance.Knows.step {o : ClusterSig.Op} {r : ClusterSig.Ans o} (h : q.Knows s)
    (hallows : clusterGlanceMonitor.allows q o) (hs : clusterSem s o r s') (hsame : s' = s) :
    (q.next o r).Knows s' := by
  subst hsame
  cases o with
  | getLibvirtCluster =>
    refine ⟨fun c hc => (clusterSem_getLibvirtCluster hs).2 c (Option.some.inj hc), fun hc => ?_,
      h.written⟩
    cases Option.some.inj hc
    obtain ⟨choice, hchoice⟩ := hs
    change choice.find s' = some (.error .notFound, s') at hchoice
    unfold ClusterChoice.find at hchoice
    split at hchoice
    · cases hchoice
    · rfl
    · cases hchoice
  | patch before after =>
    cases r with
    | error e => exact h
    | ok _ =>
      obtain ⟨choice, hchoice⟩ := hs
      obtain rfl := h.read before hallows
      refine ⟨h.read, h.gone, Bool.or_eq_false_iff.mpr ⟨h.written, ?_⟩⟩
      exact Bool.eq_false_iff.mpr fun hne =>
        LibvirtClusterObject.merge_ne hne (eq_of_change hchoice)
  | patchStatus before after =>
    cases r with
    | error e => exact h
    | ok _ =>
      obtain ⟨choice, hchoice⟩ := hs
      obtain rfl := h.read before hallows
      refine ⟨h.read, h.gone, Bool.or_eq_false_iff.mpr ⟨h.written, ?_⟩⟩
      exact Bool.eq_false_iff.mpr fun hne =>
        LibvirtClusterObject.mergeStatus_ne hne (eq_of_change hchoice)
  | getOwnerCluster c => cases r <;> exact ⟨h.read, h.gone, h.written⟩
  | ensureInfra cfg => cases r <;> exact ⟨h.read, h.gone, h.written⟩
  | patchStatusConditions before after => exact h
  | newHelper => exact h
  | loadCredentials c => exact h

/-- The same answers, with more written at most. -/
structure ClusterGlance.Grows (q q' : ClusterGlance) : Prop where
  cluster : q'.cluster = q.cluster
  owner : q'.owner = q.owner
  ensured : q'.ensured = q.ensured
  written : q.written = true → q'.written = true

theorem ClusterGlance.Grows.trans {q' q'' : ClusterGlance} (h : q.Grows q') (h' : q'.Grows q'') :
    q.Grows q'' :=
  ⟨h'.cluster.trans h.cluster, h'.owner.trans h.owner, h'.ensured.trans h.ensured,
    fun hw => h'.written (h.written hw)⟩

/-- A patch, if there is something to patch. -/
theorem clusterPatch_glance {β : Type} {Φ : ClusterGlance → β → Prop} {p : Prop}
    {_ : Decidable p} {written : Bool} {request : ClusterM (Except ApiError Unit)}
    {f : Except ApiError Unit → ClusterM β} (hdiffers : written = true → p)
    (h : request.Obeys clusterGlanceMonitor
      (fun q' r => q.Grows q' ∧ (r = .ok () → written = true → q'.written = true)) q)
    (hf : ∀ q' r, q.Grows q' → (r = .ok () → written = true → q'.written = true) →
      (f r).Obeys clusterGlanceMonitor Φ q') :
    (if p then request >>= f else pure (.ok ()) >>= f : ClusterM β).Obeys
      clusterGlanceMonitor Φ q := by
  split
  · exact Prog.obeys_bind.mpr (h.mono fun q' r hr => hf q' r hr.1 hr.2)
  · rename_i hsame
    exact hf q (.ok ()) ⟨rfl, rfl, rfl, id⟩ fun _ hw => absurd (hdiffers hw) hsame

/-- The finalizers are patched. -/
theorem clusterPatchObject_glance (hq : q.cluster = some (.ok before)) :
    (Prog.perform (σ := ClusterSig) (.patch before after)).Obeys clusterGlanceMonitor
      (fun q' r => q.Grows q' ∧ (r = .ok () → before.rewrites after = true → q'.written = true))
      q := by
  refine ⟨hq, fun r => ?_⟩
  cases r with
  | error e => exact ⟨⟨rfl, rfl, rfl, id⟩, fun h => (by cases h)⟩
  | ok _ =>
    exact ⟨⟨rfl, rfl, rfl, fun h => Bool.or_eq_true_iff.mpr (Or.inl h)⟩,
      fun _ h => Bool.or_eq_true_iff.mpr (Or.inr h)⟩

/-- The status is patched. -/
theorem clusterPatchStatus_glance (hq : q.cluster = some (.ok before)) :
    (Prog.perform (σ := ClusterSig) (.patchStatus before after)).Obeys clusterGlanceMonitor
      (fun q' r => q.Grows q' ∧ (r = .ok () → before.reports after = true → q'.written = true))
      q := by
  refine ⟨hq, fun r => ?_⟩
  cases r with
  | error e => exact ⟨⟨rfl, rfl, rfl, id⟩, fun h => (by cases h)⟩
  | ok _ =>
    exact ⟨⟨rfl, rfl, rfl, fun h => Bool.or_eq_true_iff.mpr (Or.inl h)⟩,
      fun _ h => Bool.or_eq_true_iff.mpr (Or.inr h)⟩

/-- **The patch**: without an error, what is new has been written. The status
comes last, and is written only if the object remains. -/
theorem clusterHelperPatch_glance (hq : q.cluster = some (.ok before)) :
    (LibvirtClusterReconciler.helperPatch before after).Obeys clusterGlanceMonitor
      (fun q' err => q.Grows q' ∧ (err = none →
        (before.rewrites after = true → q'.written = true)
        ∧ (after.deletionTimestamp = false → before.reports after = true → q'.written = true)))
      q := by
  have hconditions : (Prog.perform (σ := ClusterSig) (.patchStatusConditions before after)).Obeys
      clusterGlanceMonitor
      (fun q' r => q.Grows q' ∧ (r = .ok () → false = true → q'.written = true)) q :=
    ⟨hq, fun r => ⟨⟨rfl, rfl, rfl, id⟩, fun _ h => (by cases h)⟩⟩
  refine clusterPatch_glance (fun h => (by cases h)) hconditions fun q₁ conditions h₁ _ => ?_
  have hq₁ := h₁.cluster.trans hq
  refine clusterPatch_glance of_decide_eq_true (clusterPatchObject_glance hq₁)
    fun q₂ object h₂ hw₂ => ?_
  have hq₂ := h₂.cluster.trans hq₁
  refine clusterPatch_glance (fun h hsame => ?_) (clusterPatchStatus_glance hq₂)
    fun q₃ status h₃ hw₃ => ?_
  · unfold LibvirtClusterObject.reports at h
    simp [hsame] at h
  refine ⟨h₁.trans (h₂.trans h₃), fun herr => ?_⟩
  have herr := newAggregate_eq_none herr
  cases conditions with
  | error e => cases herr
  | ok _ =>
    cases object with
    | error e => cases herr
    | ok _ =>
      refine ⟨fun hw => h₃.written (hw₂ rfl hw), fun hdel hw => ?_⟩
      rw [hdel] at herr
      cases status with
      | ok _ => exact hw₃ rfl hw
      | error e => cases e <;> cases herr

/-- **Why there is nothing more to do**, once the object goes to the patch:
there is something new to write or to report, or the object was left alone for
one of the reasons of `ClusterRest`. -/
def ClusterGlance.Halts (c : LibvirtClusterObject) (owner : Option OwnerCluster)
    (q : ClusterGlance) (r : LibvirtClusterObject × Outcome) : Prop :=
  (q.cluster = some (.ok c) ∧ q.owner = some (c, owner)) ∧ (r.2.again = false →
    c.rewrites r.1 = true
    ∨ (r.1.deletionTimestamp = false ∧ c.reports r.1 = true)
    ∨ ClusterRest c (fun cfg => q.ensured = some cfg) owner)

theorem ClusterGlance.Halts.of_again {r : LibvirtClusterObject × Outcome}
    (hq : q.cluster = some (.ok c) ∧ q.owner = some (c, owner)) (h : r.2.again = true) :
    q.Halts c owner r :=
  ⟨hq, fun h' => absurd (h.symm.trans h') Bool.noConfusion⟩

/-- A status that is reported, or has been. If it is new it is written, and
the object comes back; if not, the object says so already. -/
theorem ClusterGlance.Halts.of_reports {after : LibvirtClusterObject} {outcome : Outcome}
    (hq : q.cluster = some (.ok c) ∧ q.owner = some (c, owner))
    (hdel : after.deletionTimestamp = false)
    (h : c.status.ready = after.status.ready → c.status.provisioned = after.status.provisioned →
      ClusterRest c (fun cfg => q.ensured = some cfg) owner) :
    q.Halts c owner (after, outcome) := by
  refine ⟨hq, fun _ => Or.inr ?_⟩
  cases hreports : c.reports after with
  | true => exact Or.inl ⟨hdel, rfl⟩
  | false =>
    obtain ⟨hready, hprovisioned⟩ := LibvirtClusterObject.reports_eq_false hreports
    exact Or.inr (h hready hprovisioned)

section Owned

variable {o : OwnerCluster}

theorem reconcileInfra_glance (hq : q.cluster = some (.ok c) ∧ q.owner = some (c, some o))
    (hdel : c.deletionTimestamp = false) (hfin : libvirtClusterFinalizer ∈ c.finalizers) :
    (LibvirtClusterReconciler.reconcileInfra ⟨o, c, newInfraConfig c⟩).Obeys clusterGlanceMonitor
      (ClusterGlance.Halts c (some o)) q := by
  refine Prog.obeys_perform_bind.mpr ⟨trivial, fun r => ?_⟩
  rcases r with err | creds
  · exact .of_again hq rfl
  refine Prog.obeys_perform_bind.mpr ⟨trivial, fun r => ?_⟩
  rcases r with err | _
  · exact .of_again hq rfl
  · exact .of_reports hq hdel fun hready hprovisioned =>
      .ready hdel hfin creds rfl hready hprovisioned

theorem clusterReconcileNormal_glance
    (hq : q.cluster = some (.ok c) ∧ q.owner = some (c, some o))
    (hdel : c.deletionTimestamp = false) :
    (LibvirtClusterReconciler.reconcileNormal ⟨o, c, newInfraConfig c⟩).Obeys clusterGlanceMonitor
      (ClusterGlance.Halts c (some o)) q := by
  unfold LibvirtClusterReconciler.reconcileNormal
  dsimp only
  split
  · rename_i hpaused
    exact ⟨hq, fun _ => Or.inr (Or.inr (.paused hdel hpaused))⟩
  split
  · refine ⟨hq, fun _ => Or.inl (decide_eq_true fun h => ?_)⟩
    exact absurd (List.append_right_eq_self.mp h) (List.cons_ne_nil _ _)
  rename_i hfin
  have hfin := not_not.mp hfin
  split
  · rename_i hendpoint
    have hendpoint : hasControlPlaneEndpoint o c = false := by simpa using hendpoint
    exact .of_reports hq hdel fun hready hprovisioned =>
      .noEndpoint hdel hfin hendpoint hready hprovisioned
  · exact reconcileInfra_glance hq hdel hfin

theorem clusterReconcileDelete_glance
    (hq : q.cluster = some (.ok c) ∧ q.owner = some (c, some o)) :
    q.Halts c (some o) (LibvirtClusterReconciler.reconcileDelete ⟨o, c, newInfraConfig c⟩) := by
  unfold LibvirtClusterReconciler.reconcileDelete
  dsimp only
  split
  · rename_i hfin
    refine ⟨hq, fun _ => Or.inl (decide_eq_true fun h => ?_)⟩
    have hfilter : c.finalizers.filter (· ≠ libvirtClusterFinalizer) = c.finalizers := h
    rw [← hfilter] at hfin
    exact of_decide_eq_true (List.mem_filter.mp hfin).2 rfl
  · exact .of_again hq rfl

end Owned

theorem reconcileCluster_glance (hq : q.cluster = some (.ok c) ∧ q.owner = some (c, owner)) :
    (LibvirtClusterReconciler.reconcileCluster c owner).Obeys clusterGlanceMonitor
      (ClusterGlance.Halts c owner) q := by
  cases owner with
  | none => exact ⟨hq, fun _ => Or.inr (Or.inr .unowned)⟩
  | some o =>
    show Prog.Obeys _ _ _ (if c.deletionTimestamp then _ else _)
    cases hdel : c.deletionTimestamp with
    | true => exact clusterReconcileDelete_glance hq
    | false => exact clusterReconcileNormal_glance hq hdel

/-- **Why a reconcile that is not repeated has nothing to do**: there is no
object, or it has changed it, or it was left alone. -/
def ClusterGlance.Done (q : ClusterGlance) (outcome : Outcome) : Prop :=
  outcome.again = false →
    q.cluster = some (.error .notFound)
    ∨ q.written = true
    ∨ ∃ c owner, q.cluster = some (.ok c) ∧ q.owner = some (c, owner)
      ∧ ClusterRest c (fun cfg => q.ensured = some cfg) owner

theorem clusterReconcile_glance :
    LibvirtClusterReconciler.reconcile.Obeys clusterGlanceMonitor ClusterGlance.Done {} := by
  refine Prog.obeys_perform_bind.mpr ⟨trivial, fun r => ?_⟩
  rcases r with err | c
  · cases err with
    | notFound => exact fun _ => Or.inl rfl
    | _ => exact fun h => absurd h Bool.noConfusion
  refine Prog.obeys_perform_bind.mpr ⟨trivial, fun r => ?_⟩
  rcases r with err | owner
  · exact fun h => absurd h Bool.noConfusion
  refine Prog.obeys_perform_bind.mpr ⟨trivial, fun r => ?_⟩
  rcases r with err | _
  · exact fun h => absurd h Bool.noConfusion
  refine Prog.obeys_bind.mpr ((reconcileCluster_glance ⟨rfl, rfl⟩).mono
    fun q r hr => ?_)
  obtain ⟨after, outcome⟩ := r
  obtain ⟨hq, hr⟩ := hr
  refine Prog.obeys_bind.mpr ((clusterHelperPatch_glance hq.1).mono fun q' err hpatch => ?_)
  intro hagain
  obtain ⟨hquiet, rfl⟩ := Outcome.again_patched hagain
  obtain ⟨hgrows, hwritten⟩ := hpatch
  obtain ⟨hrewrites, hreports⟩ := hwritten rfl
  rcases hr hquiet with h | ⟨hdel, h⟩ | h
  · exact Or.inr (Or.inl (hrewrites h))
  · exact Or.inr (Or.inl (hreports hdel h))
  · rw [← hgrows.ensured] at h
    exact Or.inr (Or.inr ⟨c, owner, hgrows.cluster.trans hq.1, hgrows.owner.trans hq.2, h⟩)

/-- The owner that is recorded was answered. -/
theorem mem_of_glance_owner {tr : List (Event ClusterSig)}
    (h : (clusterGlanceMonitor.after {} tr).owner = some (c, owner)) :
    ⟨.getOwnerCluster c, .ok owner⟩ ∈ tr := by
  obtain ⟨⟨o, r⟩, hmem, q, hq, hnext⟩ := Monitor.exists_of_after
    (P := fun q : ClusterGlance => q.owner = some (c, owner)) (fun h => (by cases h)) h
  cases o with
  | getOwnerCluster c' =>
    cases r with
    | error err => exact absurd hnext hq
    | ok owner' =>
      cases Option.some.inj hnext
      exact hmem
  | ensureInfra cfg => cases r <;> exact absurd hnext hq
  | patch before after => cases r <;> exact absurd hnext hq
  | patchStatus before after => cases r <;> exact absurd hnext hq
  | _ => exact absurd hnext hq

/-- The infrastructure that is recorded was found in order. -/
theorem mem_of_glance_ensured {tr : List (Event ClusterSig)} {cfg : InfraConfig}
    (h : (clusterGlanceMonitor.after {} tr).ensured = some cfg) :
    ⟨.ensureInfra cfg, .ok ()⟩ ∈ tr := by
  obtain ⟨⟨o, r⟩, hmem, q, hq, hnext⟩ := Monitor.exists_of_after
    (P := fun q : ClusterGlance => q.ensured = some cfg) (fun h => (by cases h)) h
  cases o with
  | ensureInfra cfg' =>
    cases r with
    | error err => exact absurd hnext hq
    | ok _ =>
      cases Option.some.inj hnext
      exact hmem
  | getOwnerCluster c => cases r <;> exact absurd hnext hq
  | patch before after => cases r <;> exact absurd hnext hq
  | patchStatus before after => cases r <;> exact absurd hnext hq
  | _ => exact absurd hnext hq

theorem ClusterRest.mono {ensured ensured' : InfraConfig → Prop} (h : ClusterRest c ensured owner)
    (hensured : ∀ cfg, ensured cfg → ensured' cfg) : ClusterRest c ensured' owner := by
  cases h with
  | unowned => exact .unowned
  | paused hdel hpaused => exact .paused hdel hpaused
  | noEndpoint hdel hfin hendpoint hready hprovisioned =>
    exact .noEndpoint hdel hfin hendpoint hready hprovisioned
  | ready hdel hfin creds h hready hprovisioned =>
    exact .ready hdel hfin creds (hensured _ h) hready hprovisioned

/-- **A cluster that nobody looks at again**, after a last pass: it is gone,
or was left alone. The reason is one that this last pass has seen for itself,
in the owner or in the answer of `EnsureInfra`. -/
def ClusterAtRest (object : Option LibvirtClusterObject) (last : List (Event ClusterSig)) : Prop :=
  object = none
  ∨ ∃ c owner, object = some c
    ∧ ⟨.getOwnerCluster c, (.ok owner : Except GoError (Option OwnerCluster))⟩ ∈ last
    ∧ ClusterRest c
      (fun cfg => ⟨.ensureInfra cfg, (.ok () : Except InfraError Unit)⟩ ∈ last) owner

/-- **No cluster is forgotten.** Whatever fails and whatever others do, a
cluster that is not due is gone, or its last pass has left it alone for one of
the reasons there are. One of them is that it is ready: the controller does
not look at its infrastructure again by itself. -/
theorem no_cluster_is_forgotten
    {env : Option LibvirtClusterObject → Option LibvirtClusterObject → Prop}
    {q₀ q : Queue ClusterSig (Option LibvirtClusterObject)} (hdue : q₀.due = true)
    (h : Relation.ReflTransGen
      (QueueStep env id clusterSem LibvirtClusterReconciler.reconcile Outcome.again) q₀ q)
    (hrest : q.due = false) : ClusterAtRest q.state q.last := by
  refine QueueStep.rest (fun s tr s' outcome he hagain => ?_) hdue h hrest
  have hstart : ClusterGlance.Knows {} (id s) :=
    ⟨fun _ h => (by cases h), fun h => (by cases h), rfl⟩
  obtain ⟨hknows, hdone⟩ :=
    clusterReconcile_glance.quiet he hstart fun _ _ _ _ _ => ClusterGlance.Knows.step
  rcases hdone hagain with hgone | hwritten | ⟨c, owner, hc, howner, hrests⟩
  · exact Or.inl (hknows.gone hgone)
  · exact absurd (hwritten.symm.trans hknows.written) Bool.noConfusion
  · exact Or.inr ⟨c, owner, hknows.read c hc, mem_of_glance_owner howner,
      hrests.mono fun _ => mem_of_glance_ensured⟩

/-- A pass of the cluster in which all goes well. -/
def calmClusterPass : Queue ClusterSig (Option LibvirtClusterObject) →
    Option (Queue ClusterSig (Option LibvirtClusterObject)) :=
  Queue.passOn id clusterStep LibvirtClusterReconciler.reconcile Outcome.again
    { owner := some sampleOwner } []

/-- The infrastructure is found in order and reported, and the next pass is
the last. -/
theorem no_cluster_is_forgotten_ready : ∃ q : Queue ClusterSig (Option LibvirtClusterObject),
    Relation.ReflTransGen (QueueStep (fun _ _ => False) id clusterSem
      LibvirtClusterReconciler.reconcile Outcome.again) ⟨some sampleClusterObject, true, []⟩ q
    ∧ q.state.isSome = true ∧ q.due = false
    ∧ ClusterAtRest q.state q.last := by
  have hrun : ((calmClusterPass ⟨some sampleClusterObject, true, []⟩).bind fun q₁ =>
      (calmClusterPass q₁).map fun q => (q.state.isSome, q.due)) = some (true, false) := by
    decide +kernel
  obtain ⟨q₁, h₁, hrun⟩ := Option.bind_eq_some_iff.mp hrun
  obtain ⟨q, h₂, hq⟩ := Option.map_eq_some_iff.mp hrun
  obtain ⟨hsome, hrest⟩ := Prod.mk.inj hq
  have hpass {q q' : Queue ClusterSig (Option LibvirtClusterObject)}
      (h : calmClusterPass q = some q') :
      QueueStep (fun _ _ => False) id clusterSem LibvirtClusterReconciler.reconcile Outcome.again
        q q' :=
    .of_passOn h fun _ _ c _ _ hc => ⟨c, hc⟩
  have hreach := (Relation.ReflTransGen.single (hpass h₁)).tail (hpass h₂)
  exact ⟨q, hreach, hsome, hrest, no_cluster_is_forgotten rfl hreach hrest⟩

end Cluster

end LibvirtProvider

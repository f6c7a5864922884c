import LibvirtProvider.ClusterController
import LibvirtProvider.Ensures

/-!
# Clusters converge

What the cluster controller makes of a `LibvirtCluster` when its calls get
through. The object may come from anywhere: with or without the finalizer, and
with any status left by reconciles that were cut off. Two or more reconciles
bring it to where the infrastructure is: if `EnsureInfra` returns nil, the
object is ready and provisioned and there is nothing more to do; if not, the
next reconcile is asked for, and readiness is what it was
(`cluster_converges`).
-/

namespace LibvirtProvider

open Interaction

/-- **What a reconcile of a cluster finds**: the owner, the credentials and
what `EnsureInfra` returns. They are the same for all the reconciles; an
`EnsureInfra` that returns an error is no failed call, but an answer. -/
structure ClusterSetting where
  owner : OwnerCluster
  credentials : Option Credentials
  infra : Except InfraError Unit

/-- The answers of an environment in which no call fails. -/
def ClusterSetting.answers (e : ClusterSetting) : ClusterChoice :=
  { owner := some e.owner, credentials := e.credentials, infra := e.infra }

/-- What the calls mean there. -/
def workingClusterSem (e : ClusterSetting) : Sem ClusterSig (Option LibvirtClusterObject) :=
  fun s o r s' => clusterStep s o e.answers = some (r, s')

/-- What is stored once the patch is through. The three requests are those of
the helper, in its order. -/
def LibvirtClusterObject.patched (before after : LibvirtClusterObject) : LibvirtClusterObject :=
  before.mergeStatus after (before.merge after (before.mergeConditions after before))

section Patch

variable {e : ClusterSetting} {s s' : Option LibvirtClusterObject}
  {before after stored : LibvirtClusterObject}

/-- A call has the one answer. -/
theorem clusterStep_yields {o : ClusterSig.Op} {r : ClusterSig.Ans o}
    (h : clusterStep s o e.answers = some (r, s')) :
    Prog.Yields (workingClusterSem e) (Prog.perform (σ := ClusterSig) o) s s' r := by
  refine .perform h fun r' t ht => ?_
  cases Option.some.inj (h.symm.trans ht)
  exact ⟨rfl, rfl⟩

/-- A change of an object that is not being deleted is stored. -/
theorem ClusterSetting.answers_change (e : ClusterSetting)
    {f : LibvirtClusterObject → LibvirtClusterObject} (hdel : stored.deletionTimestamp = false)
    (hf : (f stored).deletionTimestamp = false) :
    e.answers.change (some stored) f = some (.ok (), some (f stored)) := by
  have haccepts : stored.accepts (f stored) = true := by
    rw [LibvirtClusterObject.accepts, hdel]
    rfl
  have hstores : (f stored).stores = some (f stored) := by
    rw [LibvirtClusterObject.stores, hf]
    rfl
  unfold ClusterChoice.change
  dsimp only
  rw [if_pos haccepts, hstores]
  rfl

namespace LibvirtClusterObject

theorem mergeConditions_self (h : after.status.conditions = before.status.conditions) :
    before.mergeConditions after stored = stored := by
  have hnone : before.status.conditions.filter (· ∉ before.status.conditions) = [] :=
    List.filter_eq_nil_iff.mpr fun x hx => by simp [hx]
  simp only [mergeConditions, h, hnone, List.foldl_nil]

theorem merge_self (h : after.finalizers = before.finalizers) :
    before.merge after stored = stored := by
  simp only [merge, if_pos h]

theorem patched_finalizers : (before.patched after).finalizers = after.finalizers := by
  by_cases h : after.finalizers = before.finalizers
  · exact (if_pos h).trans h.symm
  · exact if_neg h

theorem patched_ready : (before.patched after).status.ready = after.status.ready :=
  mergeStatus_ready rfl

theorem patched_provisioned :
    (before.patched after).status.provisioned = after.status.provisioned :=
  mergeStatus_provisioned rfl

end LibvirtClusterObject

/-- A patch, if there is something to patch. If there is nothing, the object
is already what the patch would make of it. -/
theorem clusterPatch_yields {β : Type} {p : Prop} {_ : Decidable p}
    {request : ClusterM (Except ApiError Unit)} {f : Except ApiError Unit → ClusterM β} {b : β}
    {x y : LibvirtClusterObject}
    (h : Prog.Yields (workingClusterSem e) request (some x) (some y) (.ok ()))
    (hsame : ¬ p → y = x) (hf : Prog.Yields (workingClusterSem e) (f (.ok ())) (some y) s' b) :
    Prog.Yields (workingClusterSem e)
      (if p then request >>= f else pure (.ok ()) >>= f : ClusterM β) (some x) s' b := by
  split
  · exact h.bind hf
  · rename_i hp
    rw [hsame hp] at hf
    exact hf

/-- **The deferred patch** of an object that nobody else has changed goes
through, and the reconcile ends with the error it had, if any. -/
theorem clusterHelperPatch_yields (hdel : before.deletionTimestamp = false) :
    Prog.Yields (workingClusterSem e) (LibvirtClusterReconciler.helperPatch before after)
      (some before) (some (before.patched after)) none := by
  have hconditions : Prog.Yields (workingClusterSem e)
      (Prog.perform (σ := ClusterSig) (.patchStatusConditions before after)) (some before)
      (some (before.mergeConditions after before)) (.ok ()) :=
    clusterStep_yields (e.answers_change hdel hdel)
  have hobject : Prog.Yields (workingClusterSem e)
      (Prog.perform (σ := ClusterSig) (.patch before after))
      (some (before.mergeConditions after before))
      (some (before.merge after (before.mergeConditions after before))) (.ok ()) :=
    clusterStep_yields (e.answers_change hdel hdel)
  have hstatus : Prog.Yields (workingClusterSem e)
      (Prog.perform (σ := ClusterSig) (.patchStatus before after))
      (some (before.merge after (before.mergeConditions after before)))
      (some (before.patched after)) (.ok ()) :=
    clusterStep_yields (e.answers_change hdel hdel)
  refine clusterPatch_yields hconditions (fun hsame => ?_) <|
    clusterPatch_yields hobject (fun hsame => ?_) <|
      clusterPatch_yields hstatus (fun hsame => ?_) (.done _)
  · exact LibvirtClusterObject.mergeConditions_self (not_not.mp hsame)
  · exact LibvirtClusterObject.merge_self (not_not.mp hsame)
  · exact LibvirtClusterObject.mergeStatus_self (not_not.mp hsame)

end Patch

section Rounds

variable {e : ClusterSetting} {c after : LibvirtClusterObject} {outcome : Outcome}

/-- **A reconcile** of an object that is not being deleted, after what it does
until the patch. What is before that only reads. -/
theorem clusterReconcile_yields (hdel : c.deletionTimestamp = false) (herr : outcome.err = none)
    (h : Prog.Yields (workingClusterSem e)
      (LibvirtClusterReconciler.reconcileNormal ⟨e.owner, c, newInfraConfig c⟩) (some c) (some c)
      (after, outcome)) :
    Prog.Yields (workingClusterSem e) LibvirtClusterReconciler.reconcile (some c)
      (some (c.patched after)) outcome := by
  have howned : Prog.Yields (workingClusterSem e)
      (LibvirtClusterReconciler.reconcileCluster c (some e.owner)) (some c) (some c)
      (after, outcome) := by
    show Prog.Yields _ (if c.deletionTimestamp then _ else _) _ _ _
    rw [hdel]
    exact h
  have houtcome : { outcome with err := outcome.err <|> none } = outcome := by
    rw [herr]
    exact congrArg (Outcome.mk outcome.requeueAfter) herr.symm
  have hrest := howned.bind (f := fun r => LibvirtClusterReconciler.helperPatch c r.1 >>= fun
    patchErr => (pure { r.2 with err := r.2.err <|> patchErr } : ClusterM Outcome))
    ((clusterHelperPatch_yields hdel).bind (.done _))
  rw [houtcome] at hrest
  exact (clusterStep_yields rfl).bind ((clusterStep_yields rfl).bind
    ((clusterStep_yields rfl).bind hrest))

/-- **An object that the cluster controller works on**, in its setting.
Without an endpoint it would wait for one. -/
structure ClusterSetting.Wants (e : ClusterSetting) (c : LibvirtClusterObject) : Prop where
  deletion : c.deletionTimestamp = false
  unpaused : LibvirtClusterReconciler.isPaused e.owner c = false
  endpoint : hasControlPlaneEndpoint e.owner c = true

/-- It remains one. -/
theorem ClusterSetting.Wants.patched (h : e.Wants c) : e.Wants (c.patched after) :=
  ⟨h.deletion, h.unpaused, h.endpoint⟩

/-- The first reconcile adds the finalizer and returns; the infrastructure is
not looked at yet, and no other reconcile is asked for. -/
theorem ClusterSetting.Wants.adopts (h : e.Wants c)
    (hfin : libvirtClusterFinalizer ∉ c.finalizers) :
    Prog.Yields (workingClusterSem e) LibvirtClusterReconciler.reconcile (some c)
      (some (c.patched { c with finalizers := c.finalizers ++ [libvirtClusterFinalizer] })) {} := by
  refine clusterReconcile_yields h.deletion rfl ?_
  unfold LibvirtClusterReconciler.reconcileNormal
  dsimp only
  rw [if_neg (Bool.eq_false_iff.mp h.unpaused), if_pos hfin]
  exact .done _

/-- The object while its infrastructure is looked at. -/
def LibvirtClusterObject.withEndpoint (c : LibvirtClusterObject) : LibvirtClusterObject :=
  (c.withCondition .controlPlaneEndpointReady .yes .controlPlaneEndpointReady "").withCondition
    .infrastructureReady .no .infrastructureProvisioningInProgress
    "Infrastructure provisioning in progress"

theorem ClusterSetting.Wants.reconcileNormal_eq (h : e.Wants c)
    (hfin : libvirtClusterFinalizer ∈ c.finalizers) :
    LibvirtClusterReconciler.reconcileNormal ⟨e.owner, c, newInfraConfig c⟩
      = LibvirtClusterReconciler.reconcileInfra ⟨e.owner, c, newInfraConfig c⟩ := by
  unfold LibvirtClusterReconciler.reconcileNormal
  dsimp only
  rw [if_neg (Bool.eq_false_iff.mp h.unpaused), if_neg (not_not.mpr hfin), h.endpoint]
  rfl

theorem loadCredentials_yields (c' : LibvirtClusterObject) :
    Prog.Yields (workingClusterSem e) (Prog.perform (σ := ClusterSig) (.loadCredentials c'))
      (some c) (some c) (.ok e.credentials) :=
  clusterStep_yields rfl

/-- With the finalizer, the infrastructure decides: it is in order. -/
theorem ClusterSetting.Wants.settles (h : e.Wants c)
    (hfin : libvirtClusterFinalizer ∈ c.finalizers) (hinfra : e.infra = .ok ()) :
    Prog.Yields (workingClusterSem e) LibvirtClusterReconciler.reconcile (some c)
      (some (c.patched (((c.withEndpoint.withCondition .infrastructureReady .yes
        .infrastructureReady "All infrastructure components are ready").withReady
          true).withProvisioned true))) {} := by
  refine clusterReconcile_yields h.deletion rfl ?_
  rw [h.reconcileNormal_eq hfin]
  have hensure (cfg : InfraConfig) :
      clusterStep (some c) (.ensureInfra cfg) e.answers = some (.ok (), some c) :=
    congrArg (fun r => some (r, some c)) hinfra
  refine (loadCredentials_yields c.withEndpoint).bind ?_
  exact (clusterStep_yields (hensure _)).bind (.done _)

/-- It is not in order: the condition says why, and another reconcile is asked
for. The status keeps the readiness it had. -/
theorem ClusterSetting.Wants.waits (h : e.Wants c)
    (hfin : libvirtClusterFinalizer ∈ c.finalizers) {err : InfraError}
    (hinfra : e.infra = .error err) :
    Prog.Yields (workingClusterSem e) LibvirtClusterReconciler.reconcile (some c)
      (some (c.patched (c.withEndpoint.withCondition .infrastructureReady .no (getInfraError err)
        err.message))) { requeueAfter := some requeueTimeShort } := by
  refine clusterReconcile_yields h.deletion rfl ?_
  rw [h.reconcileNormal_eq hfin]
  have hensure (cfg : InfraConfig) :
      clusterStep (some c) (.ensureInfra cfg) e.answers = some (.error err, some c) :=
    congrArg (fun r => some (r, some c)) hinfra
  refine (loadCredentials_yields c.withEndpoint).bind ?_
  exact (clusterStep_yields (hensure _)).bind (.done _)

/-- **What becomes of an object** `c₀`: it is worked on, under the spec it
had, and as long as its infrastructure is not in order its readiness is what
it was – also if that is ready. -/
structure ClusterSetting.Follows (e : ClusterSetting) (c₀ c : LibvirtClusterObject) : Prop where
  wants : e.Wants c
  spec : c.spec = c₀.spec
  kept : e.infra ≠ .ok () → c.status.ready = c₀.status.ready
    ∧ c.status.provisioned = c₀.status.provisioned

/-- **What is reported**, after a reconcile that gets to the infrastructure.
That the infrastructure is not in order is no error of the reconcile. -/
structure ClusterSetting.Reported (e : ClusterSetting) (c₀ c : LibvirtClusterObject)
    (outcome : Outcome) : Prop where
  follows : e.Follows c₀ c
  finalizer : libvirtClusterFinalizer ∈ c.finalizers
  err : outcome.err = none
  ready : e.infra = .ok () → outcome.requeueAfter = none ∧ c.status.ready = true
    ∧ c.status.provisioned = true
  waiting : e.infra ≠ .ok () → outcome.requeueAfter = some requeueTimeShort

variable {c₀ : LibvirtClusterObject}

theorem ClusterSetting.Follows.patched (h : e.Follows c₀ c)
    (hready : e.infra ≠ .ok () → after.status.ready = c.status.ready
      ∧ after.status.provisioned = c.status.provisioned) : e.Follows c₀ (c.patched after) where
  wants := h.wants.patched
  spec := h.spec
  kept hne := by
    rw [LibvirtClusterObject.patched_ready, LibvirtClusterObject.patched_provisioned,
      (hready hne).1, (hready hne).2]
    exact h.kept hne

/-- **One reconcile** of an object with the finalizer gets to the
infrastructure, and leaves an object of which the same can be said again. -/
theorem ClusterSetting.Follows.round (h : e.Follows c₀ c)
    (hfin : libvirtClusterFinalizer ∈ c.finalizers) :
    Prog.Ensures (workingClusterSem e) LibvirtClusterReconciler.reconcile (some c)
      fun s' outcome => ∃ c', s' = some c' ∧ e.Reported c₀ c' outcome := by
  have hkept {after : LibvirtClusterObject} (hafter : after.finalizers = c.finalizers) :
      libvirtClusterFinalizer ∈ (c.patched after).finalizers := by
    rw [LibvirtClusterObject.patched_finalizers, hafter]
    exact hfin
  cases hinfra : e.infra with
  | ok _ =>
    refine (h.wants.settles hfin hinfra).ensures ⟨_, rfl, ?_, hkept rfl, rfl,
      fun _ => ⟨rfl, ?_, ?_⟩, fun hne => absurd hinfra hne⟩
    · exact h.patched fun hne => absurd hinfra hne
    · exact LibvirtClusterObject.patched_ready
    · exact LibvirtClusterObject.patched_provisioned
  | error err =>
    have hne : e.infra ≠ .ok () := by
      intro hok
      rw [hinfra] at hok
      cases hok
    exact (h.wants.waits hfin hinfra).ensures ⟨_, rfl, h.patched fun _ => ⟨rfl, rfl⟩, hkept rfl,
      rfl, fun hok => absurd hok hne, fun _ => rfl⟩

/-- **Clusters converge.** From whatever is stored, two or more reconciles in
which no call fails leave the object with the finalizer and return no error.
If `EnsureInfra` returns nil, it is ready and provisioned then and no further
reconcile is asked for; if not, one is, and its readiness is what it was. An
object that was ready once is thus not taken back when its infrastructure goes
away. -/
theorem cluster_converges (h : e.Wants c) (n : ℕ) :
    Prog.Ensures (workingClusterSem e) (LibvirtClusterReconciler.reconcile.repeated (n + 1))
      (some c) fun s' outcome => ∃ c', s' = some c' ∧ e.Reported c c' outcome := by
  have hfollows : e.Follows c c := ⟨h, rfl, fun _ => ⟨rfl, rfl⟩⟩
  have hfirst : Prog.Ensures (workingClusterSem e) LibvirtClusterReconciler.reconcile (some c)
      fun s' _ => ∃ c', s' = some c' ∧ e.Follows c c'
        ∧ libvirtClusterFinalizer ∈ c'.finalizers := by
    by_cases hfin : libvirtClusterFinalizer ∈ c.finalizers
    · refine (hfollows.round hfin).mono ?_
      rintro s' outcome ⟨c', hs', hc'⟩
      exact ⟨c', hs', hc'.follows, hc'.finalizer⟩
    · refine (h.adopts hfin).ensures ⟨_, rfl, hfollows.patched fun _ => ⟨rfl, rfl⟩, ?_⟩
      rw [LibvirtClusterObject.patched_finalizers]
      exact List.mem_append_right _ List.mem_cons_self
  refine hfirst.bind fun s₁ _ hs₁ => ?_
  refine Prog.Ensures.repeated (A := fun s => ∃ c', s = some c' ∧ e.Follows c c'
    ∧ libvirtClusterFinalizer ∈ c'.finalizers) ?_ n hs₁
  rintro s ⟨c', rfl, hc', hfin⟩
  refine (hc'.round hfin).mono ?_
  rintro s' outcome ⟨c'', hs', hreported⟩
  exact ⟨⟨c'', hs', hreported.follows, hreported.finalizer⟩, c'', hs', hreported⟩

/-- The network is not active. -/
def inactiveSetting : ClusterSetting := ⟨sampleOwner, none, .error (.inactive .network "default")⟩

/-- The cluster has lost its finalizer, and says that it is ready. -/
def strippedCluster : LibvirtClusterObject :=
  { sampleClusterObject with finalizers := [], status := ⟨true, [], true⟩ }

theorem cluster_converges_inactive :
    inactiveSetting.Wants strippedCluster
    ∧ Prog.Ensures (workingClusterSem inactiveSetting)
      (LibvirtClusterReconciler.reconcile.repeated 1) (some strippedCluster)
      fun s' outcome => ∃ c', s' = some c' ∧ inactiveSetting.Reported strippedCluster c' outcome :=
  have hwants : inactiveSetting.Wants strippedCluster := ⟨rfl, by decide, by decide⟩
  ⟨hwants, cluster_converges hwants 0⟩

end Rounds

end LibvirtProvider

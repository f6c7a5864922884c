import LibvirtProvider.Upkeep

/-!
# Reconciles that are not disturbed

What a run has left is set right by reconciles in which no call fails, as far as
the code can. Of a machine that is to be there, two of them are enough if its
domain is on the host: the first one adds the finalizer, if it is missing, and
the second finds the domain shut off or running and has it running in the end,
with the object saying so. If the domain is not there, the lookup ends with an
error that is not recognised, and no number of reconciles gets further
(`Wanted.converges`, `Wanted.stands_still`). A machine that is being deleted is
gone after one if the host has all of it, and otherwise never
(`Whole.deleteResources_yields`, `deleteResources_ensures`).

The state a run has left is one of those of `Upheld`. Where a call leaves
something open – the image that is read back, the leases of the network – the
results are about all outcomes.
-/

namespace LibvirtProvider

open Interaction

/-! ## Calls that do not fail -/

/-- **What is there beside the machine**: the objects that own it, the
credentials of the host, and the bootstrap data. It does not change while the
reconciles go on. -/
structure Setting where
  owner : Machine
  cluster : Cluster
  credentials : Option Credentials
  userData : Bytes

/-- What the API server answers then. -/
def Setting.answers (e : Setting) : ApiChoice where
  ownerMachine := some e.owner
  ownerCluster := some e.cluster
  credentials := e.credentials
  secretValue := some e.userData

/-- **A machine can be provisioned**: its bootstrap data are there, the cluster
is not paused and its infrastructure is there. -/
structure Setting.Ready (e : Setting) : Prop where
  bootstrap : e.owner.dataSecretName.isSome = true
  unpaused : e.cluster.paused ≠ some true
  infrastructure : e.cluster.infrastructureProvisioned = some true

/-- What the calls of the manager mean when none of them fails. What a host
leaves open, such as its leases, remains open. -/
def workingManagerSem (e : Setting) : Sem ManagerSig Management := fun s o r s' =>
  ∃ c : ManagementChoice, c.api = e.answers ∧ c.libvirt.fault = none
    ∧ managerStep s o c = some (r, s')

/-- What the calls of the controller mean then. -/
def workingControllerSem (e : Setting) : Sem ControllerSig Management :=
  Prog.semVia implement (workingManagerSem e)

section Working

variable {α : Type} {e : Setting} {s s' : Management} {w : World} {host : ℕ}

/-- Reconciles that are not disturbed are reconciles, so that what holds along
every run holds along these. -/
theorem exec_of_workingController {p : ControllerM α} {tr : List (Event ControllerSig)} {a : α}
    (h : Prog.Exec (workingControllerSem e) p s tr s' a) : Prog.Exec controllerSem p s tr s' a := by
  refine h.map (g := id) ?_
  rintro s o r s' ⟨tr, hrun⟩
  refine ⟨tr, hrun.map (g := id) ?_⟩
  rintro s o r s' ⟨c, -, -, hstep⟩
  exact ⟨c, hstep⟩

/-- **A request** that does not fail. -/
theorem api_yields {o : ApiOp} {r : o.Result} {a : ApiState}
    (h : apiStep s.api o e.answers = some (r, a)) :
    Prog.Yields (workingControllerSem e) (api o) s { s with api := a } r := by
  have hstep (c : ManagementChoice) (hc : c.api = e.answers) :
      managerStep s (.api o) c = some (r, { s with api := a }) := by
    simp only [managerStep, hc, h]
    rfl
  refine .perform ⟨_, Prog.exec_perform.mpr
    ⟨⟨{ api := e.answers }, rfl, rfl, hstep _ rfl⟩, rfl⟩⟩ ?_
  rintro r' t ⟨tr, hrun⟩
  obtain ⟨⟨c, hc, -, ht⟩, -⟩ := Prog.exec_perform.mp hrun
  cases (hstep c hc).symm.trans ht
  exact ⟨rfl, rfl⟩

/-- **Over a connection**, a program ensures what it ensures on the host, and
the other hosts are what they were. -/
theorem connected_ensures {cfg : MachineConfig} {p : LibvirtM α}
    {Q : Host → Except GoError α → Prop}
    (hhost : w.hostOf cfg.uri = some host)
    (h : Prog.Ensures workingHostSem p.run (w.hosts host) Q) :
    Prog.Ensures workingProviderSem (connected cfg p).run w
      fun w' r => ∃ t, Q t r ∧ w' = w.setHost host t := by
  have hconnect : Prog.Yields workingProviderSem
      (Prog.perform (σ := ProviderSig) (.connect cfg.toInfraConfig)) w w
      (.ok ⟨host⟩ : Except GoError ConnRef) := by
    refine .perform ⟨{}, rfl, by simp only [providerStep, hhost]⟩ ?_
    rintro r' t ⟨c, hc, hstep⟩
    simp only [providerStep, hc, hhost] at hstep
    cases hstep
    exact ⟨rfl, rfl⟩
  refine .bind_ok (Prog.Yields.adapt _ (x := ExceptT.mk _) hconnect) ?_
  refine Prog.Ensures.interp_at (ConnRef.event ⟨host⟩) (fun (w : World) s => w.setHost host s)
    (fun tr w' b => ?_) h
  refine Prog.exec_interp_part (fun w : World => w.hosts host) (fun w s => w.setHost host s)
    (fun w s => w.hosts_setHost_self host s) (fun w s s' => w.setHost_setHost host s s')
    (fun w => w.setHost_hosts host) ?_
  intro w o r tr w'
  constructor
  · intro he
    obtain ⟨⟨c, hc, hstep⟩, rfl⟩ := Prog.exec_perform.mp he
    obtain ⟨⟨_, s'⟩, hx, heq⟩ := Option.map_eq_some_iff.mp hstep
    cases heq
    exact ⟨s', ⟨c, hc, hx⟩, rfl, rfl⟩
  · rintro ⟨s', ⟨c, hc, hx⟩, rfl, rfl⟩
    exact Prog.exec_perform.mpr ⟨⟨c, hc, Option.map_eq_some_iff.mpr ⟨(r, s'), hx, rfl⟩⟩, rfl⟩

/-- **An operation** ensures what it ensures on its host. The objects are not
touched by it. -/
theorem provider_ensures {o : MachineOp} {Q : Host → o.Result → Prop}
    (hhost : s.world.hostOf o.cfg.uri = some host)
    (h : Prog.Ensures workingHostSem (provideOn o) (s.world.hosts host) Q) :
    Prog.Ensures (workingControllerSem e) (provider o) s
      fun s' r => ∃ t, Q t r ∧ s' = { s with world := s.world.setHost host t } := by
  have hworld : Prog.Ensures workingProviderSem (provide o) s.world
      fun w' r => ∃ t, Q t r ∧ w' = s.world.setHost host t := by
    cases o <;> exact connected_ensures hhost h
  refine Prog.ensures_interp.mp ?_
  have hinterp : (provider o).interp implement
      = (provide o).interp fun x => Prog.perform (σ := ManagerSig) (.provider x) :=
    Prog.bind_done _
  rw [hinterp]
  refine Prog.Ensures.mono (Prog.Ensures.interp_at managerEvent
    (fun (s : Management) w => { s with world := w }) (fun tr s' b => ?_) hworld) ?_
  · refine Prog.exec_interp_part (fun s : Management => s.world) (fun s w => { s with world := w })
      (fun _ _ => rfl) (fun _ _ _ => rfl) (fun _ => rfl) ?_
    intro s o r tr s'
    constructor
    · intro he
      obtain ⟨⟨c, -, hc, hstep⟩, rfl⟩ := Prog.exec_perform.mp he
      obtain ⟨⟨_, w⟩, hx, heq⟩ := Option.map_eq_some_iff.mp hstep
      cases heq
      exact ⟨w, ⟨c.libvirt, hc, hx⟩, rfl, rfl⟩
    · rintro ⟨w, ⟨c, hc, hx⟩, rfl, rfl⟩
      exact Prog.exec_perform.mpr ⟨⟨⟨e.answers, c⟩, rfl, hc,
        Option.map_eq_some_iff.mpr ⟨(r, w), hx, rfl⟩⟩, rfl⟩
  · rintro s' r ⟨w', ⟨t, ht, rfl⟩, rfl⟩
    exact ⟨t, ht, rfl⟩

/-- The address is looked up, whatever the leases are, and nothing changes. -/
theorem machineAddressOn_ensures (s : Host) (cfg : MachineConfig) :
    Prog.Ensures workingHostSem (machineAddressOn cfg).run s fun s' _ => s' = s := by
  have hleases : (machineAddress cfg.network cfg.mac).run.Calls (· ≠ NetworkOp.hang) :=
    .bind_except (.adapt ⟨nofun, fun _ => trivial⟩) fun _ => trivial
  have hcalls : (machineAddressOn cfg).run.Calls fun o : LibvirtOp =>
      ∀ net, o ≠ .network net .hang := by
    refine .bind_except (.adapt ⟨nofun, fun _ => trivial⟩) fun net =>
      onNetwork_calls_of hleases fun o ho net' h => ?_
    cases h
    exact ho rfl
  exact ⟨hcalls.exists_exec (fun s o => workingHostSem_total s) s,
    fun tr s' r h => machineAddressOn_exec (exec_of_working h)⟩

end Working

/-! ## The deferred patch -/

/-- What is stored once the patch is through. The three requests are those of
the helper, in its order; each writes only what it has found to differ. -/
def LibvirtMachine.patched (before after : LibvirtMachine) : LibvirtMachine :=
  before.mergeStatus after (before.merge after (before.mergeConditions after before))

section Patch

variable {e : Setting} {s : Management} {before after stored : LibvirtMachine}

theorem LibvirtMachine.mergeConditions_self
    (h : after.status.conditions = before.status.conditions) :
    before.mergeConditions after stored = stored := by
  have hnone : (before.status.conditions.filter (· ∉ before.status.conditions)) = [] :=
    List.filter_eq_nil_iff.mpr fun x hx => by simp [hx]
  simp only [mergeConditions, h, hnone, List.foldl_nil]

theorem LibvirtMachine.merge_self (hf : after.finalizers = before.finalizers)
    (hid : after.spec.providerID = before.spec.providerID) :
    before.merge after stored = stored := by
  simp only [merge, if_pos hf, if_pos hid]

theorem LibvirtMachine.patched_finalizers :
    (before.patched after).finalizers = after.finalizers := by
  show (if after.finalizers = before.finalizers then before.finalizers else after.finalizers) = _
  split <;> simp only [*]

theorem LibvirtMachine.patched_providerID :
    (before.patched after).spec.providerID = after.spec.providerID := by
  show (if after.spec.providerID = before.spec.providerID then before.spec.providerID
    else after.spec.providerID) = _
  split <;> simp only [*]

theorem LibvirtMachine.patched_ready :
    (before.patched after).status.ready = after.status.ready :=
  LibvirtMachine.mergeStatus_ready rfl

theorem LibvirtMachine.patched_provisioned :
    (before.patched after).status.provisioned = after.status.provisioned :=
  LibvirtMachine.mergeStatus_provisioned rfl

theorem LibvirtMachine.stores_of_not_deleting (h : stored.deletionTimestamp = false) :
    stored.stores = some stored := by
  simp only [stores, h, Bool.false_and, Bool.false_eq_true, if_false]

/-- An object that is not being deleted is taken, unless it changes a provider
ID. One that is being deleted could not be given a finalizer. -/
theorem LibvirtMachine.accepts_of_not_deleting {new : LibvirtMachine}
    (h : stored.deletionTimestamp = false)
    (hid : new.spec.providerID = stored.spec.providerID ∨ stored.spec.providerID = none) :
    stored.accepts new = true := by
  rcases hid with hid | hid
  · simp [accepts, h, hid]
  · simp [accepts, h, hid]

/-- **A change that is accepted** is made. -/
theorem Setting.answers_change (e : Setting) {a : ApiState} {f : LibvirtMachine → LibvirtMachine}
    {machine : Option LibvirtMachine} (hstored : a.machine = some stored)
    (haccepts : stored.accepts (f stored) = true) (hstores : (f stored).stores = machine) :
    e.answers.change a f = some (.ok (), { a with machine := machine }) := by
  simp only [ApiChoice.change, hstored, haccepts, if_true, hstores]
  rfl

/-- A request that is made only where there is something to ask for. Without
it the result is the same, so the cases need not be told apart later. -/
theorem patchIf_yields {differs : Bool} {request : ControllerM (Except ApiError Unit)}
    {machine : Option LibvirtMachine}
    (h : Prog.Yields (workingControllerSem e) request s
      { s with api := { s.api with machine := machine } } (.ok ()))
    (hsame : differs = false → s.api.machine = machine) :
    Prog.Yields (workingControllerSem e) (patchIf differs request) s
      { s with api := { s.api with machine := machine } } (.ok ()) := by
  cases differs with
  | true => exact h
  | false =>
    rw [← hsame rfl]
    exact .done _

/-- **The deferred patch** of an object that nobody else has changed goes
through, and leaves what was read with the changes. -/
theorem helperPatch_yields (hm : s.api.machine = some before)
    (hdel : before.deletionTimestamp = false)
    (hid : after.spec.providerID = before.spec.providerID ∨ before.spec.providerID = none) :
    Prog.Yields (workingControllerSem e) (helperPatch before after) s
      { s with api := { s.api with machine := some (before.patched after) } } none := by
  set conditions := before.mergeConditions after before with hconditions
  set object := before.merge after conditions with hobject
  set status := before.mergeStatus after object with hstatus
  have hchange (stored : LibvirtMachine) (f : LibvirtMachine → LibvirtMachine)
      (hstored : stored.deletionTimestamp = before.deletionTimestamp)
      (hf : (f stored).deletionTimestamp = before.deletionTimestamp)
      (hid : (f stored).spec.providerID = stored.spec.providerID
        ∨ stored.spec.providerID = none) :
      e.answers.change { s.api with machine := some stored } f
        = some (.ok (), { s.api with machine := some (f stored) }) :=
    e.answers_change rfl (LibvirtMachine.accepts_of_not_deleting (hstored.trans hdel) hid)
      (LibvirtMachine.stores_of_not_deleting (hf.trans hdel))
  have hpatchConditions : Prog.Yields (workingControllerSem e)
      (api (.patchStatusConditions before after))
      { s with api := { s.api with machine := some before } }
      { s with api := { s.api with machine := some conditions } } (.ok ()) :=
    api_yields (hchange before (before.mergeConditions after) rfl rfl (Or.inl rfl))
  have hpatch : Prog.Yields (workingControllerSem e) (api (.patch before after))
      { s with api := { s.api with machine := some conditions } }
      { s with api := { s.api with machine := some object } } (.ok ()) := by
    refine api_yields (hchange conditions (before.merge after) rfl rfl ?_)
    by_cases hkept : after.spec.providerID = before.spec.providerID
    · exact Or.inl (if_pos hkept)
    · exact Or.inr (hid.resolve_left hkept)
  have hpatchStatus : Prog.Yields (workingControllerSem e) (api (.patchStatus before after))
      { s with api := { s.api with machine := some object } }
      { s with api := { s.api with machine := some status } } (.ok ()) :=
    api_yields (hchange object (before.mergeStatus after) rfl rfl (Or.inl rfl))
  rw [← hm] at hpatchConditions
  refine .bind (patchIf_yields hpatchConditions fun hsame => ?_)
    (.bind (patchIf_yields hpatch fun hsame => ?_)
      (.bind (patchIf_yields hpatchStatus fun hsame => ?_) (.done _)))
  · rw [hm, hconditions, LibvirtMachine.mergeConditions_self (by simpa using hsame)]
  · obtain ⟨hf, hid'⟩ : after.finalizers = before.finalizers
        ∧ after.spec.providerID = before.spec.providerID := by
      simpa using hsame
    rw [hobject, LibvirtMachine.merge_self hf hid']
  · rw [hstatus, LibvirtMachine.mergeStatus_self (by simpa using hsame)]

/-- **The finalizer is removed.** The object is gone with it if there is no
other one. -/
theorem helperPatch_releases {m : LibvirtMachine} (hm : s.api.machine = some m)
    (hfin : libvirtMachineFinalizer ∈ m.finalizers) :
    Prog.Yields (workingControllerSem e) (helperPatch m m.removeFinalizer) s
      { s with api := { s.api with machine := m.removeFinalizer.stores } } none := by
  have hdiffers : m.removeFinalizer.finalizers ≠ m.finalizers := by
    intro heq
    rw [← heq] at hfin
    simp [LibvirtMachine.removeFinalizer] at hfin
  have hmerge : m.merge m.removeFinalizer m = m.removeFinalizer := by
    simp only [LibvirtMachine.merge, if_neg hdiffers]
    exact if_pos rfl ▸ rfl
  have haccepts : m.accepts (m.merge m.removeFinalizer m) = true := by
    rw [hmerge]
    simp only [LibvirtMachine.accepts, LibvirtMachine.removeFinalizer, List.all_filter,
      beq_self_eq_true, Bool.or_true, Bool.and_true, Bool.or_eq_true]
    exact Or.inr (List.all_eq_true.mpr fun x hx => by simp [hx])
  have hpatch : Prog.Yields (workingControllerSem e) (api (.patch m m.removeFinalizer)) s
      { s with api := { s.api with machine := m.removeFinalizer.stores } } (.ok ()) :=
    api_yields (e.answers_change hm haccepts (congrArg _ hmerge))
  have hsame (differs : Bool) (request : ControllerM (Except ApiError Unit)) (t : Management)
      (h : differs = false) :
      Prog.Yields (workingControllerSem e) (patchIf differs request) t t (.ok ()) := by
    rw [h]
    exact .done _
  refine .bind (hsame _ _ s (by simp [LibvirtMachine.removeFinalizer]))
    (.bind (patchIf_yields hpatch fun hfalse => ?_)
      (.bind (hsame _ _ _ (by simp [LibvirtMachine.removeFinalizer])) (.done _)))
  exact absurd (by simpa using hfalse) (fun h => hdiffers (And.left h))

end Patch

/-! ## One reconcile -/

/-- The scope a reconcile works with: what it has read, and the configuration
made of it. -/
def Setting.scope (e : Setting) (m : LibvirtMachine) (c : LibvirtCluster) : MachineScope where
  cluster := e.cluster
  machine := e.owner
  libvirtCluster := c
  libvirtMachine := m
  machineConfig := { newMachineConfig m c with credentials := e.credentials }

/-- **The object says that the machine is there**, under its UUID. -/
structure LibvirtMachine.Serving (uuid : String) (m : LibvirtMachine) : Prop where
  providerID : m.spec.providerID = some (providerIDPrefix ++ uuid)
  ready : m.status.ready = true
  provisioned : m.status.provisioned = true

section Reconcile

variable {e : Setting} {s s' : Management} {m : LibvirtMachine} {c : LibvirtCluster} {host : ℕ}
  {name uuid : String}

/-- **A reconcile** comes down to what is done with the object, and the patch.
Everything before that only reads. -/
theorem reconcile_ensures {Q : Management → LibvirtMachine × Outcome → Prop}
    {Q' : Management → Outcome → Prop} {p : ControllerM (LibvirtMachine × Outcome)}
    (hm : s.api.machine = some m) (hc : s.api.libvirtCluster = some c)
    (hp : (if m.deletionTimestamp then reconcileDelete (e.scope m c)
      else reconcileNormal (e.scope m c)) = p)
    (h : Prog.Ensures (workingControllerSem e) p s Q)
    (hpatch : ∀ s₁ after outcome, Q s₁ (after, outcome) →
      Prog.Ensures (workingControllerSem e) (helperPatch m after) s₁
        fun s' err => Q' s' { outcome with err := outcome.err <|> err }) :
    Prog.Ensures (workingControllerSem e) reconcile s Q' := by
  obtain rfl := hp
  have hget : Prog.Yields (workingControllerSem e) (api .getLibvirtMachine) s s
      (.ok m : Except ApiError LibvirtMachine) :=
    api_yields (by simp only [apiStep, hm]; rfl)
  have hhelper : Prog.Yields (workingControllerSem e) (api .newHelper) s s
      (.ok () : Except GoError Unit) := api_yields rfl
  have howner : Prog.Yields (workingControllerSem e) (api (.getOwnerMachine m)) s s
      (.ok (some e.owner) : Except GoError (Option Machine)) := api_yields rfl
  have hcluster : Prog.Yields (workingControllerSem e) (api (.getClusterFromMetadata e.owner)) s s
      (.ok (some e.cluster) : Except GoError (Option Cluster)) := api_yields rfl
  have hinfra (key : NamespacedName) : Prog.Yields (workingControllerSem e)
      (api (.getLibvirtCluster key)) s s (.ok c : Except GoError LibvirtCluster) :=
    api_yields (by simp only [apiStep, hc]; rfl)
  have hcreds : Prog.Yields (workingControllerSem e) (api (.loadCredentials c)) s s
      (.ok e.credentials : Except GoError (Option Credentials)) := api_yields rfl
  refine .bind_yields hget (.bind_yields hhelper (.bind (Q := Q) ?_ ?_))
  · exact .bind_yields howner (.bind_yields hcluster (.bind_yields (hinfra _)
      (.bind_yields hcreds h)))
  · rintro s₁ ⟨after, outcome⟩ hq
    exact (hpatch s₁ after outcome hq).bind fun s₂ err herr => .done herr

/-- Reconciles keep what a machine can count on. So it holds before each of
any number of them. -/
theorem Upheld.round {tr : List (Event ControllerSig)} {outcome : Outcome}
    (h : Upheld name uuid c host {} s)
    (he : Prog.Exec (workingControllerSem e) reconcile s tr s' outcome) :
    Upheld name uuid c host {} s' := by
  obtain ⟨q, hq, -⟩ := reconcile_course.exec (R := Upheld name uuid c host)
    (fun q s o r s' hq ho hs => hq.step ho hs) h (exec_of_workingController he)
  exact hq.forget

/-- The provider ID an object is given is that of its UUID. -/
theorem LibvirtMachine.Bears.setProviderID (h : m.Bears uuid) :
    (setProviderID m).spec.providerID = some (providerIDPrefix ++ uuid) := by
  rcases h with h | ⟨h, huid⟩
  · rw [LibvirtProvider.setProviderID, h]
    exact h
  · rw [LibvirtProvider.setProviderID, h]
    show some (providerIDPrefix ++ domainUUID m) = _
    rw [domainUUID, h]
    exact congrArg (fun u => some (providerIDPrefix ++ u)) huid

theorem Setting.Ready.not_isPaused (h : e.Ready) (hm : m.pausedAnnotation = false) :
    ¬ isPaused e.cluster m = true := by
  simp [isPaused, h.unpaused, hm]

/-- The first reconcile adds the finalizer and returns: no operation is called
before it is stored that there is something to clean up. -/
theorem reconcileNormal_adopts (hready : e.Ready) (hpaused : m.pausedAnnotation = false)
    (hdel : m.deletionTimestamp = false) (hfin : libvirtMachineFinalizer ∉ m.finalizers) :
    Prog.Yields (workingControllerSem e) (reconcileNormal (e.scope m c)) s s
      ((m.addFinalizer.withReady false).withProvisioned false, {}) := by
  have hadopts : reconcileNormal (e.scope m c)
      = .done ((m.addFinalizer.withReady false).withProvisioned false, {}) :=
    (if_neg (hready.not_isPaused hpaused)).trans (if_pos ⟨hfin, hdel⟩)
  rw [hadopts]
  exact .done _

/-- Where the finalizer is there, it is the state of the domain that matters,
and if there is no domain, whether the error is recognised that says so. There
is one hypothesis for each case of the switch in the source. -/
theorem reconcileNormal_ensures {Q : Management → LibvirtMachine × Outcome → Prop}
    (h : Upheld name uuid c host {} s) (hm : s.api.machine = some m) (hready : e.Ready)
    (hpaused : m.pausedAnnotation = false) (hfin : libvirtMachineFinalizer ∈ m.finalizers)
    (hunseen : (s.world.hosts host).Unseen name → ∀ err,
      Q s (m.withInfrastructure, { err := some err }))
    (hnone : (s.world.hosts host).domains.lookup name = none →
      (s.world.hosts host).errors = .pointer → Prog.Ensures (workingControllerSem e)
        (reconcileMissing (e.scope m c) m.withInfrastructure) s Q)
    (hstopped : ∀ d, (s.world.hosts host).domains.lookup name = some d → d.active = false →
      Prog.Ensures (workingControllerSem e)
        (reconcileStopped (e.scope m c) m.withInfrastructure) s Q)
    (hrunning : (s.world.hosts host).Up name →
      Prog.Ensures (workingControllerSem e)
        (reconcileRunning (e.scope m c) m.withInfrastructure) s Q) :
    Prog.Ensures (workingControllerSem e) (reconcileNormal (e.scope m c)) s Q := by
  have hname : domainName m = name := h.serves.stored m hm
  have hstate := provider_ensures (e := e) (s := s)
    (o := .getMachineState (e.scope m c).machineConfig)
    h.hostOf ((getDomainState_yields (s.world.hosts host) (domainName m)).ensures
      (Q := fun t r => t = s.world.hosts host ∧ r = (s.world.hosts host).told (domainName m))
      ⟨rfl, rfl⟩)
  unfold reconcileNormal
  dsimp only
  split
  case isTrue hp => exact absurd hp (hready.not_isPaused hpaused)
  split
  case isTrue hn => exact absurd hfin hn.1
  split
  case isTrue hn => exact absurd hready.infrastructure hn
  refine .bind hstate ?_
  rintro s₁ r ⟨t, ⟨rfl, rfl⟩, rfl⟩
  rw [World.setHost_hosts, hname, Host.told]
  cases hd : (s.world.hosts host).domains.lookup name with
  | none =>
    cases hform : (s.world.hosts host).errors with
    | value => exact .done (hunseen ⟨hform, hd⟩ _)
    | pointer => exact hnone hd hform
  | some d =>
    dsimp only
    rcases h.order.steady d hd with ⟨ha, hst⟩ | ⟨ha, hst⟩
    · rw [hst]
      exact hrunning ⟨d, hd, ha, hst⟩
    · rw [hst]
      exact hstopped d hd ha

/-- **A machine that is to be there**: the object is neither paused nor being
deleted, and the past has left what it can count on. -/
structure Wanted (name uuid : String) (c : LibvirtCluster) (host : ℕ) (s : Management)
    (m : LibvirtMachine) : Prop where
  upheld : Upheld name uuid c host {} s
  stored : s.api.machine = some m
  kept : m.deletionTimestamp = false
  unpaused : m.pausedAnnotation = false

/-- **A host can have the machine run**: its domain is there, or it can be
created. The latter takes a binding whose errors the code recognises. -/
structure Obtainable (name : String) (cfg : MachineConfig) (s : Host) : Prop where
  form : s.present name = false → s.errors = .pointer
  supplied : s.present name = false → Supplied cfg s

theorem Obtainable.of_present {cfg : MachineConfig} {t : Host} (h : t.present name = true) :
    Obtainable name cfg t where
  form hnone := by cases hnone.symm.trans h
  supplied hnone := by cases hnone.symm.trans h

theorem Host.Up.present {t : Host} (h : t.Up name) : t.present name = true := by
  obtain ⟨d, hd, -⟩ := h
  exact Option.isSome_of_eq_some hd

/-- The object as it goes to the patch, with the domain up. The objects are
stored as they were, since only the patch writes them. -/
def Served (name uuid : String) (host : ℕ) (s : Management) (m : LibvirtMachine)
    (s' : Management) (r : LibvirtMachine × Outcome) : Prop :=
  s'.api = s.api ∧ (s'.world.hosts host).Up name ∧ r.1.Serving uuid
    ∧ r.1.finalizers = m.finalizers ∧ r.2.err = none

theorem Wanted.missing (h : Wanted name uuid c host s m) (hready : e.Ready) (huuid : uuid ≠ "")
    (hobtain : Obtainable name (newMachineConfig m c) (s.world.hosts host))
    (hnone : (s.world.hosts host).domains.lookup name = none) :
    Prog.Ensures (workingControllerSem e) (reconcileMissing (e.scope m c) m.withInfrastructure) s
      (Served name uuid host s m) := by
  have hpresent : (s.world.hosts host).present name = false := by
    rw [Host.present, hnone]
    rfl
  have hid : m.spec.providerID.isSome = false := by
    rw [← Bool.not_eq_true]
    intro hid
    cases hpresent.symm.trans (h.upheld.backed m h.stored h.kept hid)
  obtain ⟨dataSecretName, hsecret⟩ := Option.isSome_iff_exists.mp hready.bootstrap
  have hcloudInit : Prog.Yields (workingControllerSem e)
      (getCloudInitData (e.scope m c) dataSecretName) s s (.ok e.userData) :=
    .bind (api_yields (o := .getSecretValue _) rfl) (.done _)
  obtain rfl := h.upheld.serves.stored m h.stored
  have hbears := h.upheld.stored m h.stored
  obtain rfl := hbears.domainUUID_eq
  have hsupply := hobtain.supplied hpresent
  let cfg : MachineConfig := { (e.scope m c).machineConfig with userData := e.userData }
  have hcreate : Prog.Ensures (workingControllerSem e) (provider (.createMachine cfg)) s _ :=
    provider_ensures h.upheld.hostOf (createDomain_succeeds (hobtain.form hpresent) h.upheld.order
      ⟨hsupply.domainPool, hsupply.image, hsupply.network⟩ huuid hnone)
  unfold reconcileMissing
  dsimp only
  split
  case isTrue hn => cases hid.symm.trans hn
  rw [show (e.scope m c).machine.dataSecretName = some dataSecretName from hsecret]
  refine .bind_yields hcloudInit (.bind hcreate ?_)
  rintro s₁ r ⟨t, ⟨⟨⟩, rfl, hup⟩, rfl⟩
  refine .done ⟨rfl, ?_, ⟨?_, rfl, rfl⟩, ?_, rfl⟩
  · rw [World.hosts_setHost_self]
    exact hup
  · exact LibvirtMachine.Bears.setProviderID hbears
  · exact setProviderID_finalizers _

theorem Wanted.stopped (h : Wanted name uuid c host s m) {d : Domain}
    (hd : (s.world.hosts host).domains.lookup name = some d) (ha : d.active = false) :
    Prog.Ensures (workingControllerSem e) (reconcileStopped (e.scope m c) m.withInfrastructure) s
      (Served name uuid host s m) := by
  obtain rfl := h.upheld.serves.stored m h.stored
  have hbears := h.upheld.stored m h.stored
  obtain ⟨t, hyields, hup⟩ := startDomain_yields (e.scope m c).machineConfig hd ha
  have hstart : Prog.Ensures (workingControllerSem e)
      (provider (.startMachine (e.scope m c).machineConfig)) s _ :=
    provider_ensures h.upheld.hostOf
      (hyields.ensures (Q := fun t r => r = .ok () ∧ t.Up (domainName m))
      ⟨rfl, hup⟩)
  refine .bind hstart ?_
  rintro s₁ r ⟨t, ⟨rfl, hup⟩, rfl⟩
  refine .done ⟨rfl, ?_, ⟨?_, rfl, rfl⟩, ?_, rfl⟩
  · rw [World.hosts_setHost_self]
    exact hup
  · exact LibvirtMachine.Bears.setProviderID hbears
  · exact setProviderID_finalizers _

theorem Wanted.running (h : Wanted name uuid c host s m) (hup : (s.world.hosts host).Up name) :
    Prog.Ensures (workingControllerSem e) (reconcileRunning (e.scope m c) m.withInfrastructure) s
      (Served name uuid host s m) := by
  obtain rfl := h.upheld.serves.stored m h.stored
  have hbears := h.upheld.stored m h.stored
  have haddress : Prog.Ensures (workingControllerSem e)
      (provider (.getMachineAddress (e.scope m c).machineConfig)) s _ :=
    provider_ensures h.upheld.hostOf (machineAddressOn_ensures _ _)
  refine .bind haddress ?_
  rintro s₁ r ⟨t, rfl, rfl⟩
  rw [World.setHost_hosts]
  have hserving : (((setProviderID (m.withInfrastructure.withCondition .domainRunning .yes
      .domainRunning "Domain is running")).withReady true).withProvisioned true).Serving uuid :=
    ⟨LibvirtMachine.Bears.setProviderID hbears, rfl, rfl⟩
  cases r with
  | error err => exact .done ⟨rfl, hup, hserving, setProviderID_finalizers _, rfl⟩
  | ok address =>
    dsimp only
    split
    · exact .done ⟨rfl, hup, hserving, setProviderID_finalizers _, rfl⟩
    · exact .done ⟨rfl, hup, ⟨hserving.providerID, rfl, rfl⟩, setProviderID_finalizers _, rfl⟩

/-- **The object after the patch** is one that is wanted still: a reconcile
neither pauses an object nor deletes it. -/
theorem Wanted.patched (h : Wanted name uuid c host s m) {after : LibvirtMachine}
    (hapi : s'.api = { s.api with machine := some (m.patched after) })
    (hupheld : Upheld name uuid c host {} s') : Wanted name uuid c host s' (m.patched after) where
  upheld := hupheld
  stored := congrArg ApiState.machine hapi
  kept := h.kept
  unpaused := h.unpaused

/-- **A reconcile comes down to what it does with the object**: the deferred
patch goes through, and what a machine can count on holds again. -/
theorem Wanted.reconciles (h : Wanted name uuid c host s m)
    {Q : Management → LibvirtMachine × Outcome → Prop} {Q' : Management → Outcome → Prop}
    (hnormal : Prog.Ensures (workingControllerSem e) (reconcileNormal (e.scope m c)) s Q)
    (hid : ∀ s₁ r, Q s₁ r → s₁.api = s.api ∧ (r.1.spec.providerID = m.spec.providerID
      ∨ m.spec.providerID = none))
    (hpatched : ∀ s₁ r s', Q s₁ r → s'.world = s₁.world →
      Wanted name uuid c host s' (m.patched r.1) → Q' s' r.2) :
    Prog.Ensures (workingControllerSem e) reconcile s Q' := by
  refine Prog.Ensures.mono (Prog.Ensures.and_exec (Q := fun s' outcome =>
      Upheld name uuid c host {} s' → Q' s' outcome) ?_
    fun tr s' outcome he => h.upheld.round he) fun s' outcome hq => hq.1 hq.2
  refine reconcile_ensures h.stored h.upheld.serves.cluster
    (if_neg (Bool.eq_false_iff.mp h.kept)) hnormal ?_
  intro s₁ after outcome hq
  obtain ⟨hapi, hpid⟩ := hid s₁ _ hq
  refine (helperPatch_yields (hapi ▸ h.stored) h.kept hpid).ensures fun hupheld => ?_
  have herr : (outcome.err <|> none) = outcome.err := by cases outcome.err <;> rfl
  rw [herr]
  exact hpatched s₁ (after, outcome) _ hq rfl (h.patched (by rw [hapi]) hupheld)

/-- **The first reconcile** adds the finalizer, and that is all. No host has
changed, so what could be had from it can still be. -/
theorem Wanted.adopts (h : Wanted name uuid c host s m) (hready : e.Ready)
    (hfin : libvirtMachineFinalizer ∉ m.finalizers) :
    Prog.Ensures (workingControllerSem e) reconcile s fun s' outcome =>
      outcome.err = none ∧ s'.world = s.world
      ∧ ∃ after, Wanted name uuid c host s' (m.patched after)
        ∧ libvirtMachineFinalizer ∈ (m.patched after).finalizers := by
  refine h.reconciles (Q := fun s₁ r => s₁ = s
      ∧ r = ((m.addFinalizer.withReady false).withProvisioned false, {}))
    ((reconcileNormal_adopts hready h.unpaused h.kept hfin).ensures ⟨rfl, rfl⟩) ?_ ?_
  · rintro _ _ ⟨rfl, rfl⟩
    exact ⟨rfl, Or.inl rfl⟩
  · rintro _ _ s' ⟨rfl, rfl⟩ hworld hwanted
    refine ⟨rfl, hworld, _, hwanted, ?_⟩
    rw [LibvirtMachine.patched_finalizers]
    exact List.mem_append_right _ (List.mem_singleton_self _)

/-- **A reconcile that is not disturbed** has the finalizer in place, and if
it was there before, the machine. So two are enough, and further ones leave it
so. -/
theorem Wanted.round (h : Wanted name uuid c host s m) (hready : e.Ready) (huuid : uuid ≠ "")
    (hobtain : Obtainable name (newMachineConfig m c) (s.world.hosts host)) :
    Prog.Ensures (workingControllerSem e) reconcile s fun s' outcome =>
      outcome.err = none ∧ ∃ m', Wanted name uuid c host s' m'
        ∧ Obtainable name (newMachineConfig m' c) (s'.world.hosts host)
        ∧ libvirtMachineFinalizer ∈ m'.finalizers
        ∧ (libvirtMachineFinalizer ∈ m.finalizers →
          (s'.world.hosts host).Up name ∧ m'.Serving uuid) := by
  by_cases hfin : libvirtMachineFinalizer ∈ m.finalizers
  · refine h.reconciles (Q := Served name uuid host s m)
      (reconcileNormal_ensures h.upheld h.stored hready h.unpaused hfin (fun hunseen => ?_)
        (fun hnone _ => h.missing hready huuid hobtain hnone) (fun d => h.stopped) h.running)
      ?_ ?_
    · have hnone : (s.world.hosts host).present name = false := by
        rw [Host.present, hunseen.absent]
        rfl
      cases hunseen.errors.symm.trans (hobtain.form hnone)
    · rintro s₁ r ⟨hapi, -, hserving, -⟩
      exact ⟨hapi, (h.upheld.stored m h.stored).imp
        (fun hid => hserving.providerID.trans hid.symm) And.left⟩
    · rintro s₁ r s' ⟨-, hup, hserving, hf, herr⟩ hworld hwanted
      rw [← hworld] at hup
      refine ⟨herr, _, hwanted, .of_present hup.present, ?_, fun _ => ⟨hup, ?_⟩⟩
      · rw [LibvirtMachine.patched_finalizers, hf]
        exact hfin
      · exact ⟨LibvirtMachine.patched_providerID.trans hserving.providerID,
          LibvirtMachine.patched_ready.trans hserving.ready,
          LibvirtMachine.patched_provisioned.trans hserving.provisioned⟩
  · refine (h.adopts hready hfin).mono ?_
    rintro s' outcome ⟨herr, hworld, after, hwanted, hmem⟩
    refine ⟨herr, _, hwanted, ?_, hmem, fun hmem => absurd hmem hfin⟩
    rw [hworld]
    exact ⟨hobtain.form, fun hnone => ⟨(hobtain.supplied hnone).domainPool,
      (hobtain.supplied hnone).image, (hobtain.supplied hnone).network⟩⟩

/-- **Where the machine is out of sight**, a reconcile that is not disturbed
adds the finalizer, or fails and leaves every host as it was. The next one
starts from the same, and ends in the same way. -/
theorem Wanted.round_of_unseen (h : Wanted name uuid c host s m) (hready : e.Ready)
    (hunseen : (s.world.hosts host).Unseen name) :
    Prog.Ensures (workingControllerSem e) reconcile s fun s' outcome =>
      s'.world = s.world ∧ ∃ m', Wanted name uuid c host s' m'
        ∧ libvirtMachineFinalizer ∈ m'.finalizers
        ∧ (libvirtMachineFinalizer ∈ m.finalizers → outcome.err.isSome = true) := by
  have hnone {d : Domain} (hd : (s.world.hosts host).domains.lookup name = some d) : False := by
    cases hunseen.absent.symm.trans hd
  by_cases hfin : libvirtMachineFinalizer ∈ m.finalizers
  · refine h.reconciles (Q := fun s₁ r => s₁ = s ∧ ∃ err,
        r = (m.withInfrastructure, { err := some err }))
      (reconcileNormal_ensures h.upheld h.stored hready h.unpaused hfin
        (fun _ err => ⟨rfl, err, rfl⟩)
        (fun _ hform => by cases hunseen.errors.symm.trans hform)
        (fun d hd => (hnone hd).elim) fun hup => ?_) ?_ ?_
    · obtain ⟨d, hd, -⟩ := hup
      exact (hnone hd).elim
    · rintro _ _ ⟨rfl, err, rfl⟩
      exact ⟨rfl, Or.inl rfl⟩
    · rintro _ _ s' ⟨rfl, err, rfl⟩ hworld hwanted
      refine ⟨hworld, _, hwanted, ?_, fun _ => rfl⟩
      rw [LibvirtMachine.patched_finalizers]
      exact hfin
  · refine (h.adopts hready hfin).mono ?_
    rintro s' outcome ⟨-, hworld, after, hwanted, hmem⟩
    exact ⟨hworld, _, hwanted, hmem, fun hmem => absurd hmem hfin⟩

/-! ### Deletion -/

/-- **A machine that is being deleted**, with the finalizer still there. -/
structure Doomed (name uuid : String) (c : LibvirtCluster) (host : ℕ) (s : Management)
    (m : LibvirtMachine) : Prop where
  upheld : Upheld name uuid c host {} s
  stored : s.api.machine = some m
  deleting : m.deletionTimestamp = true
  guarded : libvirtMachineFinalizer ∈ m.finalizers

/-- **A machine that is deleted**: nothing of it is left on the host, and the
finalizer is off. The object itself is gone, unless somebody else has a
finalizer on it. -/
structure Released (c : LibvirtCluster) (host : ℕ) (m : LibvirtMachine) (s : Management) :
    Prop where
  hostOf : s.world.hostOf c.spec.uri = some host
  cluster : s.api.libvirtCluster = some c
  clean : Clean (newMachineConfig m c) (s.world.hosts host)
  deleting : m.deletionTimestamp = true
  machine : s.api.machine = m.removeFinalizer.stores

/-- What the credentials are does not matter for what is on the host. -/
theorem whole_scope {t : Host} :
    Whole (e.scope m c).machineConfig t ↔ Whole (newMachineConfig m c) t :=
  ⟨fun h => ⟨h.domain, h.rootDisk, h.isoDisk, h.network⟩,
    fun h => ⟨h.domain, h.rootDisk, h.isoDisk, h.network⟩⟩

/-- **A deletion on a host with the whole machine** is through, for either
form of the errors: every lookup finds what it looks for. -/
theorem Whole.deleteResources_yields {cfg : MachineConfig} {t : Host} (h : Whole cfg t)
    (hsole : ∀ network, t.networks cfg.network = some network → Sole cfg.domainName network) :
    ∃ t', Prog.Yields workingHostSem (deleteResources cfg).run t t' (.ok ()) ∧ Clean cfg t' := by
  obtain ⟨d, hd, hp⟩ := h.domain
  obtain ⟨ds, hdelete, hgone⟩ := deleteDomain_yields_of_persistent hd hp
  obtain ⟨t', hyields, hclean, -⟩ :=
    LibvirtProvider.deleteResources_yields (fun _ => h) hsole hdelete hgone
  exact ⟨t', hyields, hclean⟩

/-- **A deletion where something is missing** ends with an error when errors
come by value, and what is missing stays so. Then the next one ends in the
same way, although each may remove something more. -/
theorem deleteResources_ensures {cfg : MachineConfig} {t : Host} (hform : t.errors = .value)
    (hwhole : ¬ Whole cfg t) :
    Prog.Ensures workingHostSem (deleteResources cfg).run t fun t' r =>
      (∃ err, r = .error err) ∧ t'.errors = .value ∧ ¬ Whole cfg t' := by
  refine ⟨((deleteResources_calls cfg).mono fun _ ho => ho.2).exists_exec
    (fun s o => workingHostSem_total s) t, fun tr t' r he => ?_⟩
  have hexec := exec_of_working he
  refine ⟨?_, (exec_errors hexec).trans hform,
    fun h => hwhole (h.of_dwindles (deleteResources_dwindles cfg _ _ _ _ hexec))⟩
  cases r with
  | error err => exact ⟨err, rfl⟩
  | ok _ => exact absurd (deleteResources_whole hform hexec) hwhole

/-- **A deletion of what is gone** changes nothing. What it returns depends on
the form of the errors. -/
theorem Clean.exists_deleteResources_yields {cfg : MachineConfig} {t : Host} (h : Clean cfg t) :
    ∃ r, Prog.Yields workingHostSem (deleteResources cfg).run t t r := by
  cases hform : t.errors with
  | value => exact ⟨_, .bind_error _ (deleteDomain_yields_of_value hform h.domain)⟩
  | pointer => exact ⟨_, h.deleteResources_yields hform⟩

/-- **A reconcile of a machine that is being deleted** comes down to the
deletion on its host. If that fails, the finalizer stays, and with it the
object. -/
theorem Doomed.round_ensures (h : Doomed name uuid c host s m)
    {D : Host → Except GoError Unit → Prop} {Q : Management → Outcome → Prop}
    (hdelete : Prog.Ensures workingHostSem (deleteResources (e.scope m c).machineConfig).run
      (s.world.hosts host) D)
    (hok : ∀ t, D t (.ok ()) → Q ⟨{ s.api with machine := m.removeFinalizer.stores },
      s.world.setHost host t⟩ {})
    (herror : ∀ t err, D t (.error err) →
      Q { s with world := s.world.setHost host t } { err := some err }) :
    Prog.Ensures (workingControllerSem e) reconcile s Q := by
  refine reconcile_ensures (Q := fun s₁ x => ∃ t,
    s₁ = { s with world := s.world.setHost host t }
      ∧ (D t (.ok ()) ∧ x = (m.removeFinalizer, {})
        ∨ ∃ err, D t (.error err) ∧ x = (m, { err := some err })))
    h.stored h.upheld.serves.cluster (if_pos h.deleting) ?_ ?_
  · have hprovide : Prog.Ensures (workingControllerSem e)
        (provider (.deleteMachine (e.scope m c).machineConfig)) s _ :=
      provider_ensures h.upheld.hostOf hdelete
    refine .bind hprovide ?_
    rintro s₁ r ⟨t, ht, rfl⟩
    cases r with
    | error err => exact .done ⟨t, rfl, Or.inr ⟨err, ht, rfl⟩⟩
    | ok _ =>
      dsimp only
      split
      case isTrue => exact .done ⟨t, rfl, Or.inl ⟨ht, rfl⟩⟩
      case isFalse hn => exact absurd h.guarded hn
  · rintro s₁ after outcome ⟨t, rfl, ⟨ht, hx⟩ | ⟨err, ht, hx⟩⟩
    · cases hx
      have hpatch : Prog.Yields (workingControllerSem e) (helperPatch m m.removeFinalizer)
          { s with world := s.world.setHost host t } _ _ :=
        helperPatch_releases h.stored h.guarded
      exact hpatch.ensures (hok t ht)
    · cases hx
      rw [helperPatch_self]
      exact .done (herror t err ht)

theorem Released.of_clean (h : Doomed name uuid c host s m) {t : Host}
    (hclean : Clean (e.scope m c).machineConfig t) :
    Released c host m ⟨{ s.api with machine := m.removeFinalizer.stores },
      s.world.setHost host t⟩ where
  hostOf := h.upheld.hostOf
  cluster := h.upheld.serves.cluster
  clean := by
    rw [World.hosts_setHost_self]
    exact ⟨hclean.domain, hclean.rootDisk, hclean.isoDisk, hclean.entry⟩
  deleting := h.deleting
  machine := rfl

theorem Doomed.sole (h : Doomed name uuid c host s m) (network : Network)
    (hnet : (s.world.hosts host).networks c.spec.network = some network) :
    Sole (domainName m) network := by
  obtain rfl := h.upheld.serves.stored m h.stored
  exact h.upheld.order.sole network hnet

/-- **Where the whole machine is there**, a reconcile that is not disturbed is
through with it. -/
theorem Doomed.round (h : Doomed name uuid c host s m)
    (hwhole : Whole (newMachineConfig m c) (s.world.hosts host)) :
    Prog.Ensures (workingControllerSem e) reconcile s fun s' outcome =>
      Released c host m s' ∧ outcome.err = none := by
  obtain ⟨t, hyields, hclean⟩ := (whole_scope (e := e).mpr hwhole).deleteResources_yields h.sole
  refine h.round_ensures (hyields.ensures (Q := fun t r => r = .ok ()
    ∧ Clean (e.scope m c).machineConfig t) ⟨rfl, hclean⟩) (fun t ht => ?_) fun t err ht => ?_
  · exact ⟨.of_clean h ht.2, rfl⟩
  · cases ht.1

/-- **Where something of it is missing**, a reconcile fails, the object stays as
it is, and there is still something missing. -/
theorem Doomed.round_of_not_whole (h : Doomed name uuid c host s m)
    (hform : (s.world.hosts host).errors = .value)
    (hwhole : ¬ Whole (newMachineConfig m c) (s.world.hosts host)) :
    Prog.Ensures (workingControllerSem e) reconcile s fun s' outcome =>
      (Doomed name uuid c host s' m ∧ (s'.world.hosts host).errors = .value
        ∧ ¬ Whole (newMachineConfig m c) (s'.world.hosts host))
      ∧ outcome.err.isSome = true ∧ s'.api = s.api := by
  refine Prog.Ensures.mono (Prog.Ensures.and_exec (Q := fun s' outcome =>
      ((s'.world.hosts host).errors = .value
        ∧ ¬ Whole (newMachineConfig m c) (s'.world.hosts host))
      ∧ outcome.err.isSome = true ∧ s'.api = s.api)
    (h.round_ensures (deleteResources_ensures hform (mt (whole_scope (e := e)).mp hwhole))
      (fun t ht => ?_) fun t err ht => ?_)
    fun tr s' outcome he => h.upheld.round he) ?_
  · obtain ⟨⟨err, herr⟩, -⟩ := ht
    cases herr
  · obtain ⟨-, hform', hwhole'⟩ := ht
    rw [World.hosts_setHost_self]
    exact ⟨⟨hform', mt (whole_scope (e := e)).mpr hwhole'⟩, rfl, rfl⟩
  · rintro s' outcome ⟨⟨⟨hform', hwhole'⟩, herr, hapi⟩, hupheld⟩
    exact ⟨⟨⟨hupheld, hapi ▸ h.stored, h.deleting, h.guarded⟩, hform', hwhole'⟩, herr, hapi⟩

/-- **Further ones** change nothing. While another finalizer keeps the object,
the deletion is tried again each time, and may fail. -/
theorem Released.round (h : Released c host m s) :
    Prog.Ensures (workingControllerSem e) reconcile s fun s' outcome =>
      Released c host m s' ∧ (s'.api.machine = none → outcome.err = none) := by
  cases hm : m.removeFinalizer.stores with
  | none =>
    have hget : Prog.Yields (workingControllerSem e) (api .getLibvirtMachine) s s
        (.error .notFound : Except ApiError LibvirtMachine) :=
      api_yields (by simp only [apiStep, h.machine.trans hm]; rfl)
    exact .bind_yields hget (.done ⟨h, fun _ => rfl⟩)
  | some m' =>
    obtain rfl := LibvirtMachine.eq_of_stores hm
    have hstored : s.api.machine = some m.removeFinalizer := h.machine.trans hm
    have hclean : Clean (e.scope m.removeFinalizer c).machineConfig (s.world.hosts host) :=
      ⟨h.clean.domain, h.clean.rootDisk, h.clean.isoDisk, h.clean.entry⟩
    obtain ⟨r, hyields⟩ := hclean.exists_deleteResources_yields
    have hdelete : Prog.Ensures (workingControllerSem e)
        (provider (.deleteMachine (e.scope m.removeFinalizer c).machineConfig)) s _ :=
      provider_ensures h.hostOf (hyields.ensures
        (Q := fun t _ => t = s.world.hosts host) rfl)
    refine reconcile_ensures (Q := fun s₁ x => s₁ = s ∧ x.1 = m.removeFinalizer) hstored
      h.cluster (if_pos h.deleting) ?_ ?_
    · refine .bind hdelete ?_
      rintro s₁ r ⟨_, rfl, rfl⟩
      rw [World.setHost_hosts]
      cases r with
      | error err => exact .done ⟨rfl, rfl⟩
      | ok _ =>
        dsimp only
        split
        case isTrue hn => simp [Setting.scope, LibvirtMachine.removeFinalizer] at hn
        case isFalse hn => exact .done ⟨rfl, rfl⟩
    · rintro s₁ after outcome ⟨rfl, rfl⟩
      rw [helperPatch_self]
      refine .done ⟨h, fun hnone => ?_⟩
      cases hnone.symm.trans hstored

end Reconcile

/-! ## A run to start from -/

/-- The controller between two reconciles. -/
def Upkeep.between (s : Management) (outcome : Outcome) : Upkeep := ⟨s, fun _ => .done outcome⟩

theorem Upkeep.reach_of_reconcileOn (name uuid : String) (host : ℕ) {s s' : Management}
    {cs : List ManagementChoice} (h : reconcileOn cs s = some s') (outcome : Outcome) :
    ∃ outcome', Upkeep.Reach name uuid host (.between s outcome) (.between s' outcome') := by
  obtain ⟨tr, outcome', he⟩ := exec_of_reconcileOn h
  obtain ⟨tr', he'⟩ := Prog.exec_interp.mp ⟨tr, he⟩
  have hidle : (Upkeep.between s outcome).prog () = .done outcome := rfl
  have hreach : Upkeep.Reach name uuid host (.between s outcome)
      ⟨s', Function.update (Upkeep.between s outcome).prog () (.done outcome')⟩ :=
    Pool.reach_of_start hidle rfl he'
  have hupdate : Function.update (Upkeep.between s outcome).prog () (.done outcome')
      = fun _ => .done outcome' :=
    funext fun _ => Function.update_self ..
  exact ⟨outcome', by rwa [hupdate] at hreach⟩

/-- The object is asked to be deleted. -/
def Management.deleteRequested (s : Management) (m : LibvirtMachine) : Management :=
  { s with api := { s.api with machine := { m with deletionTimestamp := true }.stores } }

theorem Upkeep.reach_of_deleteRequested {name uuid : String} {host : ℕ} {s : Management}
    {m : LibvirtMachine} (hm : s.api.machine = some m) (outcome : Outcome) :
    Upkeep.Reach name uuid host (.between s outcome) (.between (s.deleteRequested m) outcome) :=
  .single ⟨.env, .env (.edit hm rfl rfl rfl rfl fun _ => rfl), fun _ _ _ => trivial⟩

/-- What is there beside the machine, in the same sample. -/
def sampleSetting : Setting where
  owner := ⟨"node-1", "default", some "node-1-bootstrap"⟩
  cluster := ⟨"prod", "default", "prod", none, some true⟩
  credentials := none
  userData := [35, 99]

theorem sampleSetting_ready : sampleSetting.Ready := ⟨rfl, by decide, rfl⟩

theorem orderly_freshHost (name uuid : String) : Orderly name uuid "default" freshHost where
  sole network hnet := by
    cases hnet
    exact .of_none (by simp)
  named network hnet e he := by
    cases hnet
    cases he
  uuids n d _ hd := by cases hd
  steady d hd := by cases hd
  standing d hd := by cases hd

/-- The home of the machine has an entry of its own, and its domain. -/
theorem orderly_homeHost :
    Orderly (domainName sampleMachine) sampleMachine.uid "default" homeHost where
  sole network hnet := by
    cases hnet
    have hown : ownEntry (domainName sampleMachine)
        ⟨sampleConfig.mac, sampleConfig.domainName, "192.168.122.9"⟩ = true :=
      ownEntry_iff.mpr (Or.inr rfl)
    exact ⟨Or.inr ⟨⟨sampleConfig.mac, sampleConfig.domainName, "192.168.122.9"⟩, rfl, rfl,
      List.filter_cons_of_pos hown⟩, nofun⟩
  named network hnet e he _ := by
    cases hnet
    cases List.mem_singleton.mp he
    rfl
  uuids n d hn hd := by
    cases (AList.lookup_insert_ne hn).symm.trans hd
  steady d hd := by
    cases (AList.lookup_insert _).symm.trans hd
    exact Or.inr ⟨rfl, rfl⟩
  standing d hd := by
    cases (AList.lookup_insert _).symm.trans hd
    exact Or.inl rfl

/-! ## The results -/

/-- **A machine is new**: the object has no provider ID, and its host, the one
its cluster names, is in order for it. -/
structure Management.New (s : Management) (m : LibvirtMachine) (c : LibvirtCluster) (host : ℕ) :
    Prop where
  machine : s.api.machine = some m
  providerID : m.spec.providerID = none
  uid : m.uid ≠ ""
  cluster : s.api.libvirtCluster = some c
  hostOf : s.world.hostOf c.spec.uri = some host
  order : Orderly (domainName m) m.uid c.spec.network (s.world.hosts host)

section Results

variable {s₀ : Management} {m₀ m : LibvirtMachine} {c : LibvirtCluster} {host : ℕ} {p : Upkeep}

theorem Management.New.upheld (h : s₀.New m₀ c host) :
    Upheld (domainName m₀) m₀.uid c host {} s₀ where
  serves := by
    refine ⟨h.cluster, fun m hm => ?_, nofun, nofun⟩
    cases h.machine.symm.trans hm
    rfl
  stored m hm := by
    cases h.machine.symm.trans hm
    exact Or.inr ⟨h.providerID, rfl⟩
  read _ hx := by cases hx
  hostOf := h.hostOf
  order := h.order
  deleting _ _ hx := by cases hx
  backed m hm _ hid := by
    cases h.machine.symm.trans hm
    rw [h.providerID] at hid
    cases hid
  shown _ hx := by cases hx

/-- **A machine that a host can have is provisioned.** Whatever has happened
since it was new, two or more reconciles in which no call fails have the
domain running and the object saying so. The number is `n + 1` after the
first, which may do no more than add the finalizer. -/
theorem Wanted.converges {s : Management} {name uuid : String}
    (h : Wanted name uuid c host s m) {e : Setting} (hready : e.Ready) (huuid : uuid ≠ "")
    (hobtain : Obtainable name (newMachineConfig m c) (s.world.hosts host)) (n : ℕ) :
    Prog.Ensures (workingManagerSem e) (manage.repeated (n + 1)) s fun s' outcome =>
      outcome.err = none ∧ (s'.world.hosts host).Up name
      ∧ ∃ m', s'.api.machine = some m' ∧ libvirtMachineFinalizer ∈ m'.finalizers
        ∧ m'.Serving uuid := by
  rw [manage, ← Prog.interp_repeated]
  refine Prog.ensures_interp.mpr ((h.round hready huuid hobtain).bind ?_)
  rintro s₁ _ ⟨-, m₁, hwanted₁, hobtain₁, hfin₁, -⟩
  refine Prog.Ensures.repeated (A := fun s => ∃ x, Wanted name uuid c host s x
    ∧ Obtainable name (newMachineConfig x c) (s.world.hosts host)
    ∧ libvirtMachineFinalizer ∈ x.finalizers) ?_ n ⟨m₁, hwanted₁, hobtain₁, hfin₁⟩
  rintro s ⟨x, hx, hobtain, hfin⟩
  refine (hx.round hready huuid hobtain).mono ?_
  rintro s' outcome ⟨herr, x', hx', hobtain', hfin', hserves⟩
  obtain ⟨hup, hserving⟩ := hserves hfin
  exact ⟨⟨x', hx', hobtain', hfin'⟩, herr, hup, x', hx'.stored, hfin', hserving⟩

/-- **A machine that is out of sight is not provisioned.** Two or more such
reconciles end with an error, and no host has changed. It is the same lookup
that fails every time. -/
theorem Wanted.stands_still {s : Management} {name uuid : String}
    (h : Wanted name uuid c host s m) {e : Setting} (hready : e.Ready)
    (hunseen : (s.world.hosts host).Unseen name) (n : ℕ) :
    Prog.Ensures (workingManagerSem e) (manage.repeated (n + 1)) s fun s' outcome =>
      outcome.err.isSome = true ∧ s'.world = s.world := by
  rw [manage, ← Prog.interp_repeated]
  refine Prog.ensures_interp.mpr ((h.round_of_unseen hready hunseen).bind ?_)
  rintro s₁ _ ⟨hworld, m₁, hwanted₁, hfin₁, -⟩
  refine Prog.Ensures.repeated (A := fun t => t.world = s.world
    ∧ ∃ x, Wanted name uuid c host t x ∧ libvirtMachineFinalizer ∈ x.finalizers) ?_ n
    ⟨hworld, m₁, hwanted₁, hfin₁⟩
  rintro t ⟨ht, x, hx, hfin⟩
  refine (hx.round_of_unseen hready (ht ▸ hunseen)).mono ?_
  rintro s' outcome ⟨hworld', x', hx', hfin', herr⟩
  exact ⟨⟨hworld'.trans ht, x', hx', hfin'⟩, herr hfin, hworld'.trans ht⟩

/-- **Provisioning converges where the domain is on the host, and there only.**
Let anything have happened since the machine was new – reconciles cut off
anywhere, calls that failed, other machines, a guest that shut down, edits – and
let two or more reconciles follow in which no call fails, with the object
neither paused nor being deleted and everything ready for it. If the domain is
on the host, it is running then, and the object says so under the UID it had. If
it is not, the last of them ends with an error and no host has changed: the code
does not recognise the error of the lookup, so that it never gets to create the
domain. -/
theorem provisioning_converges (hnew : s₀.New m₀ c host)
    (hreach : Upkeep.Reach (domainName m₀) m₀.uid host (.initial s₀) p)
    (hform : (p.state.world.hosts host).errors = .value)
    (hm : p.state.api.machine = some m) (hkept : m.deletionTimestamp = false)
    (hunpaused : m.pausedAnnotation = false) {e : Setting} (hready : e.Ready) (n : ℕ) :
    ((p.state.world.hosts host).present (domainName m₀) = true →
      Prog.Ensures (workingManagerSem e) (manage.repeated (n + 1)) p.state fun s' outcome =>
        outcome.err = none ∧ (s'.world.hosts host).Up (domainName m₀)
        ∧ ∃ m', s'.api.machine = some m' ∧ libvirtMachineFinalizer ∈ m'.finalizers
          ∧ m'.Serving m₀.uid)
    ∧ ((p.state.world.hosts host).present (domainName m₀) = false →
      Prog.Ensures (workingManagerSem e) (manage.repeated (n + 1)) p.state fun s' outcome =>
        outcome.err.isSome = true ∧ s'.world = p.state.world) := by
  have hwanted : Wanted (domainName m₀) m₀.uid c host p.state m :=
    ⟨hreach.upheld hnew.upheld, hm, hkept, hunpaused⟩
  refine ⟨fun hpresent => hwanted.converges hready hnew.uid (.of_present hpresent) n,
    fun habsent => hwanted.stands_still hready ⟨hform, ?_⟩ n⟩
  exact Option.isNone_iff_eq_none.mp (by simpa [Host.present] using habsent)

/-- The reconcile of a new machine whose domain is on the host was cut off before
the domain was started. On an empty host, nothing comes of it. -/
theorem provisioning_converges_home :
    (∃ (p : Upkeep) (m : LibvirtMachine),
      Upkeep.Reach (domainName sampleMachine) sampleMachine.uid 0 (.initial homeManagement) p
      ∧ p.state.api.machine = some m
      ∧ ((p.state.world.hosts 0).domains.lookup (domainName sampleMachine)).map Domain.active
        = some false
      ∧ Prog.Ensures (workingManagerSem sampleSetting) (manage.repeated 1) p.state
        fun s' outcome => outcome.err = none ∧ (s'.world.hosts 0).Up (domainName sampleMachine)
        ∧ ∃ m', s'.api.machine = some m' ∧ libvirtMachineFinalizer ∈ m'.finalizers
          ∧ m'.Serving sampleMachine.uid)
    ∧ Prog.Ensures (workingManagerSem sampleSetting) (manage.repeated 1) sampleManagement
      fun s' outcome => outcome.err.isSome = true ∧ s'.world = sampleManagement.world := by
  have hrun : ((reconcileOn [] homeManagement).bind fun s₁ =>
      (reconcileOn (List.replicate 10 calm ++ [outage]) s₁).map fun s =>
        decide ((∃ m ∈ s.api.machine, m.deletionTimestamp = false ∧ m.pausedAnnotation = false)
          ∧ (s.world.hosts 0).errors = .value
          ∧ (s.world.hosts 0).present (domainName sampleMachine) = true
          ∧ ((s.world.hosts 0).domains.lookup (domainName sampleMachine)).map Domain.active
            = some false)) = some true := by
    decide +kernel
  obtain ⟨s₁, h₁, hrun⟩ := Option.bind_eq_some_iff.mp hrun
  obtain ⟨s, h₂, hs⟩ := Option.map_eq_some_iff.mp hrun
  obtain ⟨⟨m, hm, hkept, hunpaused⟩, hform, hpresent, hoff⟩ := of_decide_eq_true hs
  obtain ⟨o₁, hreach₁⟩ :=
    Upkeep.reach_of_reconcileOn (domainName sampleMachine) sampleMachine.uid 0 h₁ {}
  obtain ⟨o₂, hreach₂⟩ :=
    Upkeep.reach_of_reconcileOn (domainName sampleMachine) sampleMachine.uid 0 h₂ o₁
  have hnew : homeManagement.New sampleMachine sampleCluster 0 :=
    ⟨rfl, rfl, by decide, rfl, rfl, orderly_homeHost⟩
  have hempty : sampleManagement.New sampleMachine sampleCluster 0 :=
    ⟨rfl, rfl, by decide, rfl, rfl, orderly_freshHost _ _⟩
  exact ⟨⟨_, m, hreach₁.trans hreach₂, hm, hoff, (provisioning_converges hnew
      (hreach₁.trans hreach₂) hform hm hkept hunpaused sampleSetting_ready 0).1 hpresent⟩,
    (provisioning_converges hempty .refl rfl rfl rfl rfl sampleSetting_ready 0).2 rfl⟩

/-- **Deletion converges where the whole machine is on the host, and there
only.** Whatever has happened since the machine was new, let any positive number
of reconciles follow in which no call fails, with the object being deleted and
the finalizer on it. If the domain is defined and both volumes and the network
are there, nothing of the machine is left on the host then and the finalizer is
off, and where the object is gone with it there is no error. If one of them is
missing, the last of the reconciles ends with an error and the object is what it
was: a lookup that finds nothing is an error like any other, and nothing makes
up for what is missing. -/
theorem deletion_converges (hnew : s₀.New m₀ c host)
    (hreach : Upkeep.Reach (domainName m₀) m₀.uid host (.initial s₀) p)
    (hform : (p.state.world.hosts host).errors = .value)
    (hm : p.state.api.machine = some m) (hdel : m.deletionTimestamp = true)
    (hfin : libvirtMachineFinalizer ∈ m.finalizers) (e : Setting) (n : ℕ) :
    (Whole (newMachineConfig m c) (p.state.world.hosts host) →
      Prog.Ensures (workingManagerSem e) (manage.repeated n) p.state fun s' outcome =>
        Clean (newMachineConfig m c) (s'.world.hosts host)
        ∧ s'.api.machine = m.removeFinalizer.stores
        ∧ (s'.api.machine = none → outcome.err = none))
    ∧ (¬ Whole (newMachineConfig m c) (p.state.world.hosts host) →
      Prog.Ensures (workingManagerSem e) (manage.repeated n) p.state fun s' outcome =>
        outcome.err.isSome = true ∧ s'.api = p.state.api) := by
  have hdoomed : Doomed (domainName m₀) m₀.uid c host p.state m :=
    ⟨hreach.upheld hnew.upheld, hm, hdel, hfin⟩
  rw [manage, ← Prog.interp_repeated]
  refine ⟨fun hwhole => Prog.ensures_interp.mpr ?_, fun hwhole => Prog.ensures_interp.mpr ?_⟩
  · refine Prog.Ensures.repeated (A := fun s => Released c host m s ∨ Doomed (domainName m₀) m₀.uid
      c host s m ∧ Whole (newMachineConfig m c) (s.world.hosts host)) ?_ n
      (Or.inr ⟨hdoomed, hwhole⟩)
    rintro s (hs | ⟨hs, hwhole⟩)
    · refine hs.round.mono ?_
      rintro s' outcome ⟨h, herr⟩
      exact ⟨Or.inl h, h.clean, h.machine, herr⟩
    · refine (hs.round hwhole).mono ?_
      rintro s' outcome ⟨h, herr⟩
      exact ⟨Or.inl h, h.clean, h.machine, fun _ => herr⟩
  · refine Prog.Ensures.repeated (A := fun s => (Doomed (domainName m₀) m₀.uid c host s m
      ∧ (s.world.hosts host).errors = .value
      ∧ ¬ Whole (newMachineConfig m c) (s.world.hosts host)) ∧ s.api = p.state.api) ?_ n
      ⟨⟨hdoomed, hform, hwhole⟩, rfl⟩
    rintro s ⟨⟨hs, hform, hwhole⟩, hapi⟩
    refine (hs.round_of_not_whole hform hwhole).mono ?_
    rintro s' outcome ⟨hdoomed', herr, hapi'⟩
    exact ⟨⟨hdoomed', hapi'.trans hapi⟩, herr, hapi'.trans hapi⟩

/-- A machine whose domain was on the host is running, and its deletion was cut
off in the middle. On an empty host the deletion of a machine does not end. -/
theorem deletion_converges_home :
    (∃ (p : Upkeep) (m : LibvirtMachine),
      Upkeep.Reach (domainName sampleMachine) sampleMachine.uid 0 (.initial homeManagement) p
      ∧ p.state.api.machine = some m
      ∧ (p.state.world.hosts 0).Up (domainName sampleMachine)
      ∧ Prog.Ensures (workingManagerSem sampleSetting) (manage.repeated 0) p.state
        fun s' outcome => Clean (newMachineConfig m sampleCluster) (s'.world.hosts 0)
        ∧ s'.api.machine = m.removeFinalizer.stores
        ∧ (s'.api.machine = none → outcome.err = none))
    ∧ ∃ (p : Upkeep) (m : LibvirtMachine),
      Upkeep.Reach (domainName sampleMachine) sampleMachine.uid 0 (.initial sampleManagement) p
      ∧ p.state.api.machine = some m
      ∧ Prog.Ensures (workingManagerSem sampleSetting) (manage.repeated 1) p.state
        fun s' outcome => outcome.err.isSome = true ∧ s'.api = p.state.api := by
  have hrun : ((reconcileOn [] homeManagement).bind fun s₁ => (reconcileOn [] s₁).bind fun s₂ =>
      s₂.api.machine.bind fun m => (reconcileOn (List.replicate 7 calm ++ [outage])
        (s₂.deleteRequested m)).map fun s => decide ((∃ m ∈ s.api.machine,
          m.deletionTimestamp = true ∧ libvirtMachineFinalizer ∈ m.finalizers
          ∧ Whole (newMachineConfig m sampleCluster) (s.world.hosts 0))
        ∧ (s.world.hosts 0).errors = .value
        ∧ (s.world.hosts 0).Up (domainName sampleMachine))) = some true := by
    decide +kernel
  have hempty : ((reconcileOn [] sampleManagement).bind fun s₁ =>
      (s₁.api.machine.map s₁.deleteRequested).map fun s => decide ((∃ m ∈ s.api.machine,
          m.deletionTimestamp = true ∧ libvirtMachineFinalizer ∈ m.finalizers
          ∧ ¬ Whole (newMachineConfig m sampleCluster) (s.world.hosts 0))
        ∧ (s.world.hosts 0).errors = .value)) = some true := by
    decide +kernel
  constructor
  · obtain ⟨s₁, h₁, hrun⟩ := Option.bind_eq_some_iff.mp hrun
    obtain ⟨s₂, h₂, hrun⟩ := Option.bind_eq_some_iff.mp hrun
    obtain ⟨m₂, hm₂, hrun⟩ := Option.bind_eq_some_iff.mp hrun
    obtain ⟨s, h₃, hs⟩ := Option.map_eq_some_iff.mp hrun
    obtain ⟨⟨m, hm, hdel, hfin, hwhole⟩, hform, hup⟩ := of_decide_eq_true hs
    obtain ⟨o₁, hreach₁⟩ :=
      Upkeep.reach_of_reconcileOn (domainName sampleMachine) sampleMachine.uid 0 h₁ {}
    obtain ⟨o₂, hreach₂⟩ :=
      Upkeep.reach_of_reconcileOn (domainName sampleMachine) sampleMachine.uid 0 h₂ o₁
    obtain ⟨o₃, hreach₃⟩ :=
      Upkeep.reach_of_reconcileOn (domainName sampleMachine) sampleMachine.uid 0 h₃ o₂
    have hreach := ((hreach₁.trans hreach₂).trans (Upkeep.reach_of_deleteRequested hm₂ o₂)).trans
      hreach₃
    have hnew : homeManagement.New sampleMachine sampleCluster 0 :=
      ⟨rfl, rfl, by decide, rfl, rfl, orderly_homeHost⟩
    exact ⟨_, m, hreach, hm, hup,
      (deletion_converges hnew hreach hform hm hdel hfin sampleSetting 0).1 hwhole⟩
  · obtain ⟨s₁, h₁, hempty⟩ := Option.bind_eq_some_iff.mp hempty
    obtain ⟨s, hrequest, hs⟩ := Option.map_eq_some_iff.mp hempty
    obtain ⟨m₁, hm₁, rfl⟩ := Option.map_eq_some_iff.mp hrequest
    obtain ⟨⟨m, hm, hdel, hfin, hwhole⟩, hform⟩ := of_decide_eq_true hs
    obtain ⟨o₁, hreach₁⟩ :=
      Upkeep.reach_of_reconcileOn (domainName sampleMachine) sampleMachine.uid 0 h₁ {}
    have hreach := hreach₁.trans (Upkeep.reach_of_deleteRequested hm₁ o₁)
    have hnew : sampleManagement.New sampleMachine sampleCluster 0 :=
      ⟨rfl, rfl, by decide, rfl, rfl, orderly_freshHost _ _⟩
    exact ⟨_, m, hreach, hm,
      (deletion_converges hnew hreach hform hm hdel hfin sampleSetting 1).2 hwhole⟩

end Results

end LibvirtProvider

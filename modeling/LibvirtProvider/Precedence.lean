import LibvirtProvider.ClusterController
import LibvirtProvider.Exits
import LibvirtProvider.Interleaving
import LibvirtProvider.Manager

/-!
# Infrastructure first

Two controllers work on the same cluster and never talk to each other. That
the network and the pools of a cluster are there is found out by the cluster
controller, with `EnsureInfra`; that a machine may be created is decided by the
machine controller. What the one knows gets to the other through three writes:
the cluster controller sets `status.initialization.provisioned` of the
`LibvirtCluster`, Cluster API copies it to the `Cluster`, and the machine
controller reads it there.

A `Plant` has all of them: the cluster controller, any number of machine
controllers, the objects and the hosts. Calls of all reconciles are interleaved
in any order, reconciles are cut off, requests fail or are carried out although
they failed, and the objects are edited meanwhile, but for the spec of the
`LibvirtCluster`. The history of the calls stands next to the state, the last
call first. In every history, an operation on a machine, other than its
deletion, comes after an `EnsureInfra` that returned nil for the same host,
network and pools (`infrastructure_comes_first`).
-/

namespace LibvirtProvider

open Interaction

/-! ## What a reconcile of a cluster may write -/

/-- **The course of a reconcile of a cluster**: the object that was read, and
whether the infrastructure was found to be there. This is what a status that
says provisioned can rest on. -/
structure ClusterCourse where
  read : Option LibvirtClusterObject := none
  ensured : Bool := false

/-- What a configuration names. The credentials are left aside. -/
def InfraConfig.named (cfg : InfraConfig) : InfraConfig := { cfg with credentials := none }

namespace ClusterCourse

variable (q : ClusterCourse)

/-- The course after a call. -/
def next : (o : ClusterSig.Op) → ClusterSig.Ans o → ClusterCourse
  | .getLibvirtCluster, r => { read := Except.toOption r }
  | .ensureInfra _, r => { q with ensured := q.ensured || Except.isOk r }
  | _, _ => q

/-- Which calls are allowed: `EnsureInfra` for what the object names, and a
status that says provisioned only if it said so before, or the infrastructure
was found to be there. -/
def Allows : ClusterSig.Op → Prop
  | .ensureInfra cfg => ∃ c, q.read = some c ∧ cfg.named = newInfraConfig c
  | .patchStatus before after => q.read = some before
    ∧ (after.status.provisioned = true → before.status.provisioned = true ∨ q.ensured = true)
  | _ => True

end ClusterCourse

/-- **The monitor of the course of a reconcile of a cluster**: the object that
was read is the one that is checked and the one that is patched, and
provisioned is not said without a reason. -/
def clusterCourseMonitor : Monitor ClusterSig ClusterCourse where
  next := ClusterCourse.next
  allows := ClusterCourse.Allows

section Obeys

variable {q : ClusterCourse} {c after : LibvirtClusterObject} {owner : OwnerCluster}

/-- What goes to the patch: it says provisioned only if the object did, or the
infrastructure was found to be there. -/
def ClusterCourse.Leaves (q : ClusterCourse) (before after : LibvirtClusterObject) : Prop :=
  q.read = some before
  ∧ (after.status.provisioned = true → before.status.provisioned = true ∨ q.ensured = true)

theorem reconcileInfra_course {cfg : InfraConfig} (hread : q.read = some c)
    (hcfg : cfg = newInfraConfig c) :
    (LibvirtClusterReconciler.reconcileInfra ⟨owner, c, cfg⟩).Obeys clusterCourseMonitor
      (fun q' x => q'.Leaves c x.1) q := by
  refine Prog.obeys_perform_bind.mpr ⟨trivial, fun r => ?_⟩
  cases r with
  | error err => exact ⟨hread, Or.inl⟩
  | ok creds =>
    refine Prog.obeys_perform_bind.mpr ⟨⟨c, hread, by rw [hcfg]; rfl⟩, fun r => ?_⟩
    cases r with
    | error err => exact ⟨hread, Or.inl⟩
    | ok _ => exact ⟨hread, fun _ => Or.inr (Bool.or_true _)⟩

theorem reconcileOwned_course (hread : q.read = some c) :
    (LibvirtClusterReconciler.reconcileOwned c owner).Obeys clusterCourseMonitor
      (fun q' x => q'.Leaves c x.1) q := by
  unfold LibvirtClusterReconciler.reconcileOwned
  dsimp only
  split
  · unfold LibvirtClusterReconciler.reconcileDelete
    dsimp only
    split
    · exact ⟨hread, Or.inl⟩
    · exact ⟨hread, Or.inl⟩
  · unfold LibvirtClusterReconciler.reconcileNormal
    dsimp only
    split
    · exact ⟨hread, Or.inl⟩
    split
    · exact ⟨hread, Or.inl⟩
    split
    · exact ⟨hread, fun h => by cases h⟩
    · exact reconcileInfra_course hread rfl

/-- A patch that is allowed, where there is something to patch. -/
theorem patch_course {β : Type} {Φ : ClusterCourse → β → Prop} {p : Prop} {_ : Decidable p}
    {request : ClusterM (Except ApiError Unit)} {f : Except ApiError Unit → ClusterM β}
    (h : request.Obeys clusterCourseMonitor (fun q' _ => q' = q) q)
    (hf : ∀ r, (f r).Obeys clusterCourseMonitor Φ q) :
    (if p then request >>= f else pure (.ok ()) >>= f : ClusterM β).Obeys
      clusterCourseMonitor Φ q := by
  split
  · refine Prog.obeys_bind.mpr (h.mono ?_)
    rintro _ r rfl
    exact hf r
  · exact hf _

theorem clusterHelperPatch_course (h : q.Leaves c after) :
    (LibvirtClusterReconciler.helperPatch c after).Obeys clusterCourseMonitor
      (fun _ _ => True) q := by
  have hconditions : (Prog.perform (σ := ClusterSig) (.patchStatusConditions c after)).Obeys
      clusterCourseMonitor (fun q' _ => q' = q) q := ⟨trivial, fun _ => rfl⟩
  have hobject : (Prog.perform (σ := ClusterSig) (.patch c after)).Obeys clusterCourseMonitor
      (fun q' _ => q' = q) q := ⟨trivial, fun _ => rfl⟩
  have hstatus : (Prog.perform (σ := ClusterSig) (.patchStatus c after)).Obeys clusterCourseMonitor
      (fun q' _ => q' = q) q := ⟨h, fun _ => rfl⟩
  exact patch_course hconditions fun _ => patch_course hobject fun _ =>
    patch_course hstatus fun _ => trivial

theorem clusterReconcile_course :
    LibvirtClusterReconciler.reconcile.Obeys clusterCourseMonitor (fun _ _ => True) {} := by
  refine Prog.obeys_perform_bind.mpr ⟨trivial, fun r => ?_⟩
  rcases r with (_ | msg) | c
  · trivial
  · trivial
  refine Prog.obeys_perform_bind.mpr ⟨trivial, fun r => ?_⟩
  rcases r with err | owner
  · trivial
  refine Prog.obeys_perform_bind.mpr ⟨trivial, fun r => ?_⟩
  rcases r with err | _
  · trivial
  have hpatch (q : ClusterCourse) (x : LibvirtClusterObject × Outcome) (hq : q.Leaves c x.1) :
      (LibvirtClusterReconciler.helperPatch c x.1 >>= fun patchErr =>
        (pure { x.2 with err := x.2.err <|> patchErr } : ClusterM Outcome)).Obeys
        clusterCourseMonitor (fun _ _ => True) q :=
    Prog.obeys_bind.mpr ((clusterHelperPatch_course hq).mono fun _ _ _ => trivial)
  refine Prog.obeys_bind.mpr (Prog.Obeys.mono hpatch ?_)
  cases owner with
  | none => exact ⟨rfl, Or.inl⟩
  | some owner => exact reconcileOwned_course rfl

end Obeys

/-! ## The plant -/

/-- **The calls of all controllers.** -/
inductive SystemOp (ι : Type) where
  | cluster (o : ClusterSig.Op)
  | machine (i : ι) (o : ControllerSig.Op)

/-- The signature of the two controllers, with any number of machines. -/
def SystemSig (ι : Type) : Signature where
  Op := SystemOp ι
  Ans
    | .cluster o => ClusterSig.Ans o
    | .machine _ o => ControllerSig.Ans o

/-- **The state**: the `LibvirtCluster`, whether the `Cluster` says that its
infrastructure is provisioned, the machines and the hosts. Of the `Cluster`
nothing else is used, so nothing else is kept. -/
structure Plant (ι : Type) where
  cluster : Option LibvirtClusterObject
  infrastructureProvisioned : Bool
  machines : ι → Option LibvirtMachine
  world : World

section Plant

variable {ι : Type}

/-- What the controller of a machine works on. -/
def Plant.management (s : Plant ι) (i : ι) : Management where
  api := ⟨s.machines i, s.cluster.map LibvirtClusterObject.toLibvirtCluster⟩
  world := s.world

/-- What a machine controller is told about the `Cluster`: that the
infrastructure is provisioned only if it is. It may be told that it is not
when it is, as from a cache that lags behind. -/
def Plant.Tells (s : Plant ι) : (o : ControllerSig.Op) → ControllerSig.Ans o → Prop
  | .api (.getClusterFromMetadata _), r => ∀ cluster : Cluster, r = .ok (some cluster) →
    cluster.infrastructureProvisioned = some true → s.infrastructureProvisioned = true
  | _, _ => True

/-- **The calls**: those of the cluster controller on the `LibvirtCluster`,
and those of a machine controller on its machine and the hosts. Neither writes
what is the other's. -/
def plantSem [DecidableEq ι] : Sem (SystemSig ι) (Plant ι)
  | s, .cluster o, r, s' => ∃ x, clusterSem s.cluster o r x ∧ s' = { s with cluster := x }
  | s, .machine i o, r, s' => s.Tells o r ∧ ∃ t, controllerSem (s.management i) o r t
    ∧ s' = { s with machines := Function.update s.machines i t.api.machine, world := t.world }

/-- **What happens outside the controllers**: the `LibvirtCluster` is edited
or created, with the given spec; Cluster API takes over that it is
provisioned; and whatever happens to the machines and the hosts. The
infrastructure itself can go away again: a word of it having been there is all
that is passed on. -/
inductive PlantOutside (spec : LibvirtClusterSpec) (s : Plant ι) : Plant ι → Prop where
  | cluster {x : Option LibvirtClusterObject} (h : ClusterOutside s.cluster x)
      (hspec : ∀ c, x = some c → c.spec = spec) : PlantOutside spec s { s with cluster := x }
  | core {c : LibvirtClusterObject} (hc : s.cluster = some c)
      (hprovisioned : c.status.provisioned = true) :
      PlantOutside spec s { s with infrastructureProvisioned := true }
  | machines (machines : ι → Option LibvirtMachine) (world : World) :
      PlantOutside spec s { s with machines := machines, world := world }

/-- The events so far, the last one first. -/
abbrev History (ι : Type) := List (Event (SystemSig ι))

/-- The reconciles of all controllers: `none` is the cluster's. -/
abbrev PlantSystem (ι : Type) := Pool (Option ι) (Plant ι × History ι) (SystemSig ι) Outcome

/-- A reconcile of the cluster. -/
def clusterRound : Prog (SystemSig ι) Outcome :=
  LibvirtClusterReconciler.reconcile.interp fun o => Prog.perform (σ := SystemSig ι) (.cluster o)

/-- A reconcile of a machine. -/
def machineRound (i : ι) : Prog (SystemSig ι) Outcome :=
  reconcile.interp fun o => Prog.perform (σ := SystemSig ι) (.machine i o)

/-- What the controllers run. -/
def PlantSystem.menu : Option ι → Prog (SystemSig ι) Outcome → Prop
  | none, p => p = clusterRound
  | some i, p => p = machineRound i

/-- Before the first reconcile. -/
def PlantSystem.initial (s : Plant ι) : PlantSystem ι := ⟨(s, []), fun _ => .done {}⟩

/-- **The runs**: the calls of all controllers in any order, with what happens
outside between any two of them, and any reconcile cut off anywhere. -/
def PlantSystem.Reach [DecidableEq ι] (spec : LibvirtClusterSpec) :
    PlantSystem ι → PlantSystem ι → Prop :=
  Pool.Reach (Prog.recorded plantSem fun history ev => ev :: history) PlantSystem.menu
    (fun s s' => PlantOutside spec s.1 s'.1 ∧ s'.2 = s.2) fun _ _ => True

/-! ## What the controllers know -/

/-- **The monitor of all controllers.** A client makes calls of one kind only,
so that of its two states one remains where it was. -/
def systemMonitor : Monitor (SystemSig ι) (ClusterCourse × Course) where
  next
    | q, .cluster o, r => (q.1.next o r, q.2)
    | q, .machine _ o, r => (q.1, q.2.next o r)
  allows
    | q, .cluster o => q.1.Allows o
    | q, .machine _ o => q.2.Allows o

theorem menu_obeys {i : Option ι} {p : Prog (SystemSig ι) Outcome} (h : PlantSystem.menu i p) :
    p.Obeys systemMonitor (fun _ _ => True) ({}, {}) := by
  cases i with
  | none =>
    obtain rfl := h
    refine (Prog.Obeys.interp (T := fun q q' => q'.1 = q) ?_ clusterReconcile_course rfl).mono
      fun _ _ _ => trivial
    rintro q q' o rfl ho
    exact ⟨ho, fun _ => rfl⟩
  | some i =>
    obtain rfl := h
    refine (Prog.Obeys.interp (T := fun q q' => q'.2 = q) ?_ reconcile_course rfl).mono
      fun _ _ _ => trivial
    rintro q q' o rfl ho
    exact ⟨ho, fun _ => rfl⟩

/-- What the spec names: this is what `EnsureInfra` is asked about, and what
an operation on a machine works with. -/
def LibvirtClusterSpec.infra (spec : LibvirtClusterSpec) : InfraConfig where
  uri := spec.uri
  basePool := spec.basePool
  domainPool := spec.domainPool
  network := spec.network
  credentials := none

/-- **The infrastructure was found to be there**, at some call of a history.
As a history only grows, this remains true once it is. -/
def Ensured (infra : InfraConfig) (history : History ι) : Prop :=
  ∃ cfg, ⟨.cluster (.ensureInfra cfg), (.ok () : Except InfraError Unit)⟩ ∈ history
    ∧ cfg.named = infra

theorem Ensured.cons {infra : InfraConfig} {history : History ι} (h : Ensured infra history)
    (ev : Event (SystemSig ι)) : Ensured infra (ev :: history) := by
  obtain ⟨cfg, hmem, hcfg⟩ := h
  exact ⟨cfg, List.mem_cons_of_mem ev hmem, hcfg⟩

/-- The object has the spec, and says provisioned only where the
infrastructure was found to be there. It is said of objects that are stored
and of those that were read, which may have changed since. -/
def Attested (spec : LibvirtClusterSpec) (history : History ι) (c : LibvirtClusterObject) : Prop :=
  c.spec = spec ∧ (c.status.provisioned = true → Ensured spec.infra history)

/-- **What the parties know** is true: each word of the infrastructure being
provisioned, stored or read, comes from an `EnsureInfra`; and so do the
operations on machines. -/
structure Informed (spec : LibvirtClusterSpec) (q : Option ι → ClusterCourse × Course)
    (s : Plant ι × History ι) : Prop where
  stored : ∀ c, s.1.cluster = some c → Attested spec s.2 c
  core : s.1.infrastructureProvisioned = true → Ensured spec.infra s.2
  read : ∀ i c, (q i).1.read = some c → Attested spec s.2 c
  ensured : ∀ i, (q i).1.ensured = true → Ensured spec.infra s.2
  cluster : ∀ i cluster, (q i).2.cluster = some cluster →
    cluster.infrastructureProvisioned = some true → Ensured spec.infra s.2
  seen : ∀ i c, (q i).2.libvirtCluster = some c → c.spec = spec
  past : ∀ i o r later earlier, s.2 = later ++ ⟨.machine i (.provider o), r⟩ :: earlier →
    (∀ cfg, o ≠ .deleteMachine cfg) → Ensured o.cfg.toInfraConfig.named earlier

section Informed

variable {spec : LibvirtClusterSpec} {q : Option ι → ClusterCourse × Course}
  {s : Plant ι × History ι} {x : Option LibvirtClusterObject}

theorem Attested.cons {history : History ι} {c : LibvirtClusterObject}
    (h : Attested spec history c) (ev : Event (SystemSig ι)) : Attested spec (ev :: history) c :=
  ⟨h.1, fun hp => (h.2 hp).cons ev⟩

/-- A call is made, and stands in the history. What was ensured before is
ensured still; the call itself has to be accounted for if it is an operation
on a machine. -/
theorem Informed.cons (h : Informed spec q s) (ev : Event (SystemSig ι))
    (hev : ∀ i o r, ev = ⟨.machine i (.provider o), r⟩ → (∀ cfg, o ≠ .deleteMachine cfg) →
      Ensured o.cfg.toInfraConfig.named s.2) : Informed spec q (s.1, ev :: s.2) where
  stored c hc := (h.stored c hc).cons ev
  core hcore := (h.core hcore).cons ev
  read i c hc := (h.read i c hc).cons ev
  ensured i hi := (h.ensured i hi).cons ev
  cluster i cluster hc hp := (h.cluster i cluster hc hp).cons ev
  seen := h.seen
  past i o r later earlier heq ho := by
    cases later with
    | nil =>
      obtain ⟨rfl, rfl⟩ := List.cons.inj heq
      exact hev i o r rfl ho
    | cons ev' later => exact h.past i o r later earlier (List.cons.inj heq).2 ho

/-- The `LibvirtCluster` changes. -/
theorem Informed.store (h : Informed spec q s) (hx : ∀ c, x = some c → Attested spec s.2 c) :
    Informed spec q ({ s.1 with cluster := x }, s.2) :=
  { h with stored := hx }

/-- A controller gets an answer. What the others have read is not concerned. -/
theorem Informed.set [DecidableEq ι] (h : Informed spec q s) (i : Option ι)
    {v : ClusterCourse × Course} (hread : ∀ c, v.1.read = some c → Attested spec s.2 c)
    (hensured : v.1.ensured = true → Ensured spec.infra s.2)
    (hcluster : ∀ cluster, v.2.cluster = some cluster →
      cluster.infrastructureProvisioned = some true → Ensured spec.infra s.2)
    (hseen : ∀ c, v.2.libvirtCluster = some c → c.spec = spec) :
    Informed spec (Function.update q i v) s where
  stored := h.stored
  core := h.core
  read := (Function.forall_update_iff q fun _ v => ∀ c, v.1.read = some c →
    Attested spec s.2 c).mpr ⟨hread, fun j _ => h.read j⟩
  ensured := (Function.forall_update_iff q fun _ v => v.1.ensured = true →
    Ensured spec.infra s.2).mpr ⟨hensured, fun j _ => h.ensured j⟩
  cluster := (Function.forall_update_iff q fun _ v => ∀ cluster, v.2.cluster = some cluster →
    cluster.infrastructureProvisioned = some true → Ensured spec.infra s.2).mpr
      ⟨hcluster, fun j _ => h.cluster j⟩
  seen := (Function.forall_update_iff q fun _ v => ∀ c, v.2.libvirtCluster = some c →
    c.spec = spec).mpr ⟨hseen, fun j _ => h.seen j⟩
  past := h.past

/-- What a patch of the `LibvirtCluster` does: only that of the status can
make it say provisioned, and none changes the spec. -/
theorem clusterSem_patch {o : ClusterSig.Op} {r : ClusterSig.Ans o}
    {y : Option LibvirtClusterObject} (h : clusterSem y o r x) :
    x = y ∨ ∃ stored, y = some stored
      ∧ ((∃ before after, o = .patchStatus before after
          ∧ x = (before.mergeStatus after stored).stores)
        ∨ ∃ c : LibvirtClusterObject, c.spec = stored.spec
          ∧ c.status.provisioned = stored.status.provisioned ∧ x = c.stores) := by
  have hchange {c : ClusterChoice} {f : LibvirtClusterObject → LibvirtClusterObject}
      {r : Except ApiError Unit} (hc : c.change y f = some (r, x)) :
      x = y ∨ ∃ stored, y = some stored ∧ x = (f stored).stores := by
    unfold ClusterChoice.change at hc
    split at hc
    · cases hc
      exact Or.inl rfl
    split at hc
    · split at hc
      · cases hc
        exact Or.inr ⟨_, rfl, rfl⟩
      · cases hc
        split
        · exact Or.inr ⟨_, rfl, rfl⟩
        · exact Or.inl rfl
    · cases hc
      exact Or.inl rfl
  cases o with
  | patchStatus before after =>
    obtain ⟨c, hc⟩ := h
    refine (hchange hc).imp_right ?_
    rintro ⟨stored, hy, hx⟩
    exact ⟨stored, hy, Or.inl ⟨before, after, rfl, hx⟩⟩
  | patchStatusConditions before after =>
    obtain ⟨c, hc⟩ := h
    refine (hchange hc).imp_right ?_
    rintro ⟨stored, hy, hx⟩
    exact ⟨stored, hy, Or.inr ⟨before.mergeConditions after stored, rfl, rfl, hx⟩⟩
  | patch before after =>
    obtain ⟨c, hc⟩ := h
    refine (hchange hc).imp_right ?_
    rintro ⟨stored, hy, hx⟩
    exact ⟨stored, hy, Or.inr ⟨before.merge after stored, rfl, rfl, hx⟩⟩
  | _ => exact Or.inl (clusterSem_keeps rfl h)

theorem LibvirtClusterObject.eq_of_stores {c c' : LibvirtClusterObject} (h : c.stores = some c') :
    c' = c := by
  unfold LibvirtClusterObject.stores at h
  split at h
  · cases h
  · exact (Option.some.inj h).symm

/-- The infrastructure was found to be there, if a status that is written says
so. It may have said so when it was read, or it says so because of an
`EnsureInfra` of this reconcile; a patch that was made of an older object is
no exception. -/
theorem Informed.written (h : Informed spec q s) {i : Option ι} {o : ClusterSig.Op}
    {r : ClusterSig.Ans o} (ho : (q i).1.Allows o) (hs : clusterSem s.1.cluster o r x)
    (c : LibvirtClusterObject) (hc : x = some c) : Attested spec s.2 c := by
  rcases clusterSem_patch hs with rfl | ⟨stored, hstored, ⟨before, after, rfl, rfl⟩ |
    ⟨c', hspec, hprovisioned, rfl⟩⟩
  · exact h.stored c hc
  · obtain rfl := LibvirtClusterObject.eq_of_stores hc
    obtain ⟨hread, hafter⟩ := ho
    refine ⟨(h.stored stored hstored).1, fun hp => ?_⟩
    rcases LibvirtClusterObject.provisioned_of_mergeStatus hp with hkept | ⟨hnew, hnot⟩
    · exact (h.stored stored hstored).2 hkept
    · rcases hafter hnew with hbefore | hensured
      · cases hnot.symm.trans hbefore
      · exact h.ensured i hensured
  · obtain rfl := LibvirtClusterObject.eq_of_stores hc
    exact ⟨hspec.trans (h.stored stored hstored).1,
      fun hp => (h.stored stored hstored).2 (hprovisioned.symm.trans hp)⟩

/-- **A call of the cluster controller** keeps what the parties know. It is
here that `EnsureInfra` enters the history, and that its result is stored. -/
theorem Informed.clusterCall [DecidableEq ι] (h : Informed spec q s) {i : Option ι}
    {o : ClusterSig.Op} {r : ClusterSig.Ans o} (ho : (q i).1.Allows o)
    (hs : clusterSem s.1.cluster o r x) :
    Informed spec (Function.update q i ((q i).1.next o r, (q i).2))
      ({ s.1 with cluster := x }, ⟨.cluster o, r⟩ :: s.2) := by
  have hcall : Informed spec q (s.1, ⟨.cluster o, r⟩ :: s.2) :=
    h.cons _ fun _ _ _ hev => by cases hev
  refine (hcall.store fun c hc => (h.written ho hs c hc).cons _).set i ?_ ?_
    (hcall.cluster i) (hcall.seen i)
  · cases o with
    | getLibvirtCluster =>
      intro c hc
      cases r with
      | error err => cases hc
      | ok c' =>
        cases hc
        exact hcall.stored c ((clusterSem_getLibvirtCluster hs).2 c rfl)
    | _ => exact hcall.read i
  · cases o with
    | getLibvirtCluster => exact fun hensured => by cases hensured
    | ensureInfra cfg =>
      intro hensured
      cases r with
      | error err => exact hcall.ensured i ((Bool.or_false _).symm.trans hensured)
      | ok _ =>
        obtain ⟨c, hc, hcfg⟩ := ho
        refine ⟨cfg, List.mem_cons_self, hcfg.trans ?_⟩
        rw [← (h.read i c hc).1]
        rfl
    | _ => exact hcall.ensured i

/-- The operations, other than a deletion, are called with the infrastructure
of the cluster being there, as far as was read. The configuration they are
called with is made of the spec that was read as well. -/
theorem Informed.operation (h : Informed spec q s) {i : Option ι} {o : MachineOp}
    (ho : (q i).2.Allows (.provider o)) (hdelete : ∀ cfg, o ≠ .deleteMachine cfg) :
    Ensured o.cfg.toInfraConfig.named s.2 := by
  obtain ⟨m, cluster, c, -, hcluster, -, hc, hcfg, hgrants⟩ := ho
  have hopen : (q i).2.Open m cluster := by
    cases o with
    | deleteMachine cfg => exact absurd rfl (hdelete cfg)
    | _ => exact hgrants.1
  have hnamed : o.cfg.toInfraConfig.named = spec.infra := by
    rw [← h.seen i c hc]
    unfold MachineConfig.IsFor at hcfg
    rw [hcfg]
    rfl
  rw [hnamed]
  exact h.cluster i cluster hcluster hopen.infrastructure

/-- **A call of a machine controller** keeps what the parties know. An
operation is made only after the `Cluster` was read, and what was read there
goes back to an `EnsureInfra`. -/
theorem Informed.machineCall [DecidableEq ι] (h : Informed spec q s) {i : Option ι} {j : ι}
    {o : ControllerSig.Op} {r : ControllerSig.Ans o} {t : Management} (ho : (q i).2.Allows o)
    (htells : s.1.Tells o r) (hs : controllerSem (s.1.management j) o r t) :
    Informed spec (Function.update q i ((q i).1, (q i).2.next o r))
      ({ s.1 with machines := Function.update s.1.machines j t.api.machine, world := t.world },
        ⟨.machine j o, r⟩ :: s.2) := by
  have hcall : Informed spec q (s.1, ⟨.machine j o, r⟩ :: s.2) := by
    refine h.cons _ fun _ o' _ hev hdelete => ?_
    cases hev
    exact h.operation ho hdelete
  have hplant : Informed spec q ({ s.1 with
      machines := Function.update s.1.machines j t.api.machine, world := t.world },
      ⟨.machine j o, r⟩ :: s.2) :=
    ⟨hcall.stored, hcall.core, hcall.read, hcall.ensured, hcall.cluster, hcall.seen, hcall.past⟩
  refine hplant.set i (hcall.read i) (hcall.ensured i) ?_ ?_
  · cases o with
    | provider o => exact hcall.cluster i
    | api o =>
      cases o with
      | getLibvirtMachine => exact fun _ hc => by cases hc
      | getClusterFromMetadata machine =>
        intro cluster hc hp
        cases r with
        | error err => cases hc
        | ok found =>
          cases hc
          exact hcall.core (htells cluster rfl hp)
      | _ => exact hcall.cluster i
  · cases o with
    | provider o => cases o <;> exact hcall.seen i
    | api o =>
      cases o with
      | getLibvirtMachine => exact fun _ hc => by cases hc
      | getLibvirtCluster key =>
        intro c hc
        cases r with
        | error err => cases hc
        | ok found =>
          cases hc
          obtain ⟨a, ha, -⟩ := controllerSem_api.mp hs
          obtain ⟨x, hx, rfl⟩ := Option.map_eq_some_iff.mp
            ((apiSem_getLibvirtCluster ha).2 c rfl)
          exact (h.stored x hx).1
      | _ => exact hcall.seen i

/-- **What happens outside the controllers** adds no word of its own: Cluster
API copies, and an edit that changes the status is not among what happens. -/
theorem Informed.outside (h : Informed spec q s) {s' : Plant ι} (hs : PlantOutside spec s.1 s') :
    Informed spec q (s', s.2) := by
  cases hs with
  | @cluster x hx hspec =>
    refine h.store fun c hc => ⟨hspec c hc, fun hp => ?_⟩
    obtain ⟨plant, history⟩ := s
    obtain ⟨y, core, machines, world⟩ := plant
    cases hx with
    | @edit c₀ c' hstatus =>
      obtain rfl := LibvirtClusterObject.eq_of_stores hc
      exact (h.stored c₀ rfl).2 (hstatus ▸ hp)
    | create hstatus =>
      cases hc
      rw [hstatus] at hp
      cases hp
  | core hc hp => exact { h with core := fun _ => (h.stored _ hc).2 hp }
  | machines machines world =>
    exact ⟨h.stored, h.core, h.read, h.ensured, h.cluster, h.seen, h.past⟩

/-- Before the first reconcile of a cluster that is new. -/
theorem Informed.initial {s : Plant ι} (hspec : ∀ c, s.cluster = some c → c.spec = spec)
    (hcluster : ∀ c, s.cluster = some c → c.status.provisioned = false)
    (hcore : s.infrastructureProvisioned = false) :
    Informed spec (fun _ => ({}, {})) (s, ([] : History ι)) where
  stored c hc := ⟨hspec c hc, fun hp => by cases (hcluster c hc).symm.trans hp⟩
  core hp := by cases hcore.symm.trans hp
  read _ _ hc := by cases hc
  ensured _ hq := by cases hq
  cluster _ _ hc := by cases hc
  seen _ _ hc := by cases hc
  past _ _ _ later _ heq := by cases later <;> cases heq

end Informed

/-- **Infrastructure first.** Along every run of the cluster controller and
any number of machine controllers, an operation of the provider other than
`DeleteMachine` comes after an `EnsureInfra` that returned nil for the same
host, network and pools. The spec of the cluster is not edited meanwhile: with
another spec there would be a word of the old infrastructure for the new one. -/
theorem infrastructure_comes_first [DecidableEq ι] {spec : LibvirtClusterSpec} {s : Plant ι}
    (hspec : ∀ c, s.cluster = some c → c.spec = spec)
    (hcluster : ∀ c, s.cluster = some c → c.status.provisioned = false)
    (hcore : s.infrastructureProvisioned = false) {p : PlantSystem ι}
    (hreach : PlantSystem.Reach spec (.initial s) p) {i : ι} {o : MachineOp} {r : o.Result}
    {later earlier : History ι}
    (hhistory : p.state.2 = later ++ ⟨.machine i (.provider o), r⟩ :: earlier)
    (hdelete : ∀ cfg, o ≠ .deleteMachine cfg) :
    ∃ cfg : InfraConfig,
      ⟨.cluster (.ensureInfra cfg), (.ok () : Except InfraError Unit)⟩ ∈ earlier
      ∧ cfg.named = o.cfg.toInfraConfig.named := by
  have hstart : Pool.Monitored (fun _ => systemMonitor) (Informed spec) (PlantSystem.initial s) :=
    ⟨fun _ => ({}, {}), .initial hspec hcluster hcore, fun _ => trivial⟩
  have hinformed : Pool.Monitored (fun _ => systemMonitor) (Informed spec) p := by
    refine Pool.Monitored.reach (fun _ => ({}, {})) ?_ ?_ ?_ ?_ hstart hreach
    · rintro q t i o r ⟨t₁, history⟩ hq ho ⟨ht, hrecord⟩ -
      obtain rfl := hrecord
      cases o with
      | cluster o =>
        obtain ⟨x, hx, rfl⟩ := ht
        exact hq.clusterCall ho hx
      | machine j o =>
        obtain ⟨htells, t', ht', rfl⟩ := ht
        exact hq.machineCall ho htells ht'
    · intro q t i hq
      exact hq.set i (fun _ hc => by cases hc) (fun hq => by cases hq) (fun _ hc => by cases hc)
        (fun _ hc => by cases hc)
    · intro i p hp
      exact menu_obeys hp
    · rintro q t ⟨t₁, history⟩ hq ⟨ht, hhist⟩
      obtain rfl := hhist
      exact hq.outside ht
  obtain ⟨q, hq, -⟩ := hinformed
  exact hq.past i o r later earlier hhistory hdelete

/-! ### A run on given answers -/

/-- The calls on the given choices: of the cluster controller, and of a machine
controller once the `Cluster` says that its infrastructure is provisioned. -/
def plantStep [DecidableEq ι] (s : Plant ι) : (o : (SystemSig ι).Op) →
    ClusterChoice × List ManagementChoice → Option ((SystemSig ι).Ans o × Plant ι)
  | .cluster o, c => (clusterStep s.cluster o c.1).map fun x => (x.1, { s with cluster := x.2 })
  | .machine i o, c =>
    if s.infrastructureProvisioned then
      (Prog.runWith managerStep calm (implement o) (s.management i) c.2).map fun x =>
        (x.2.2, { s with
          machines := Function.update s.machines i x.2.1.api.machine, world := x.2.1.world })
    else none

theorem plantSem_of_plantStep [DecidableEq ι] {s s' : Plant ι} {o : (SystemSig ι).Op}
    {r : (SystemSig ι).Ans o} (h : Prog.semOf plantStep s o r s') : plantSem s o r s' := by
  obtain ⟨c, hc⟩ := h
  cases o with
  | cluster o =>
    obtain ⟨x, hx, heq⟩ := Option.map_eq_some_iff.mp hc
    cases heq
    exact ⟨x.2, ⟨c.1, hx⟩, rfl⟩
  | machine i o =>
    by_cases hprovisioned : s.infrastructureProvisioned = true
    · obtain ⟨x, hx, heq⟩ := Option.map_eq_some_iff.mp ((if_pos hprovisioned).symm.trans hc)
      cases heq
      refine ⟨?_, x.2.1, ⟨x.1, Prog.exec_of_runWith hx⟩, rfl⟩
      cases o with
      | provider o => trivial
      | api o =>
        cases o with
        | getClusterFromMetadata machine => exact fun _ _ _ => hprovisioned
        | _ => trivial
    · cases (if_neg hprovisioned).symm.trans hc

/-- A reconcile of one of the controllers. -/
theorem PlantSystem.reach_of_runWith [DecidableEq ι] {spec : LibvirtClusterSpec} {p : PlantSystem ι}
    {i : Option ι} {prog : Prog (SystemSig ι) Outcome} {a b : Outcome}
    (hmenu : PlantSystem.menu i prog)
    (hidle : p.prog i = .done a) {c : ClusterChoice × List ManagementChoice}
    {cs : List (ClusterChoice × List ManagementChoice)} {tr : List (Event (SystemSig ι))}
    {s : Plant ι} (h : Prog.runWith plantStep c prog p.state.1 cs = some (tr, s, b)) :
    PlantSystem.Reach spec p ⟨(s, tr.foldl (fun history ev => ev :: history) p.state.2),
      Function.update p.prog i (.done b)⟩ := by
  have he : Prog.Exec plantSem prog p.state.1 tr s b :=
    (Prog.exec_of_runWith h).map (g := id) fun _ _ _ _ => plantSem_of_plantStep
  exact Pool.reach_of_start hidle hmenu (Prog.exec_recorded.mpr ⟨he, rfl⟩)

/-- Cluster API takes over that the cluster is provisioned. -/
theorem PlantSystem.reach_core [DecidableEq ι] {spec : LibvirtClusterSpec} {p : PlantSystem ι}
    {c : LibvirtClusterObject} (hc : p.state.1.cluster = some c)
    (hprovisioned : c.status.provisioned = true) :
    PlantSystem.Reach spec p
      ⟨({ p.state.1 with infrastructureProvisioned := true }, p.state.2), p.prog⟩ :=
  .single ⟨.env, .env ⟨.core hc hprovisioned, rfl⟩, fun _ _ _ => trivial⟩

/-- The cluster and a machine of it, both new, and a host that has the machine
already. -/
def samplePlant : Plant Unit where
  cluster := some sampleClusterObject
  infrastructureProvisioned := false
  machines _ := some sampleMachine
  world := homeManagement.world

/-- Whether a machine is started in an event. -/
def startsMachine : Event (SystemSig Unit) → Bool
  | ⟨.machine _ (.provider (.startMachine _)), _⟩ => true
  | _ => false

theorem exists_of_startsMachine {ev : Event (SystemSig Unit)} (h : startsMachine ev = true) :
    ∃ i cfg r, ev = ⟨.machine i (.provider (.startMachine cfg)), r⟩ := by
  unfold startsMachine at h
  split at h
  · exact ⟨_, _, _, rfl⟩
  · cases h

theorem infrastructure_comes_first_sample : ∃ (p : PlantSystem Unit) (i : Unit)
    (cfg : MachineConfig) (r : Except GoError Unit) (later earlier : History Unit),
    PlantSystem.Reach sampleCluster.spec (.initial samplePlant) p
    ∧ p.state.2 = later ++ ⟨.machine i (.provider (.startMachine cfg)), r⟩ :: earlier
    ∧ ∃ infra : InfraConfig,
      ⟨.cluster (.ensureInfra infra), (.ok () : Except InfraError Unit)⟩ ∈ earlier
      ∧ infra.named = cfg.toInfraConfig.named := by
  have hrun : ((Prog.runWith plantStep ({ owner := some sampleOwner }, []) clusterRound samplePlant
      []).bind fun x => x.2.1.cluster.bind fun c =>
        (Prog.runWith plantStep ({}, []) (machineRound ())
          { x.2.1 with infrastructureProvisioned := true } []).bind fun y =>
            (Prog.runWith plantStep ({}, []) (machineRound ()) y.2.1 []).map fun z =>
              (c.status.provisioned, z.1.any startsMachine)) = some (true, true) := by
    decide +kernel
  obtain ⟨⟨tr₁, s₁, o₁⟩, h₁, hrun⟩ := Option.bind_eq_some_iff.mp hrun
  obtain ⟨c, hc, hrun⟩ := Option.bind_eq_some_iff.mp hrun
  obtain ⟨⟨tr₂, s₂, o₂⟩, h₂, hrun⟩ := Option.bind_eq_some_iff.mp hrun
  obtain ⟨⟨tr₃, s₃, o₃⟩, h₃, hout⟩ := Option.map_eq_some_iff.mp hrun
  obtain ⟨hprovisioned, hstarts⟩ := Prod.mk.inj hout
  have hreach₁ : PlantSystem.Reach sampleCluster.spec (.initial samplePlant) _ :=
    PlantSystem.reach_of_runWith (i := none) rfl rfl h₁
  have hcore := hreach₁.trans (PlantSystem.reach_core hc hprovisioned)
  have hreach₂ := hcore.trans (PlantSystem.reach_of_runWith (i := some ()) rfl rfl h₂)
  have hreach₃ := hreach₂.trans (PlantSystem.reach_of_runWith (i := some ()) rfl rfl h₃)
  obtain ⟨ev, hev, hstart⟩ := List.any_eq_true.mp hstarts
  have hmem (history : History Unit) :
      ev ∈ tr₃.foldl (fun history ev => ev :: history) history := by
    rw [List.foldl_flip_cons_eq_append']
    exact List.mem_append_left _ (List.mem_reverse.mpr hev)
  obtain ⟨i, cfg, r, rfl⟩ := exists_of_startsMachine hstart
  obtain ⟨later, earlier, hhistory⟩ := List.append_of_mem (hmem _)
  exact ⟨_, i, cfg, r, later, earlier, hreach₃, hhistory,
    infrastructure_comes_first (by rintro _ ⟨⟩; rfl) (by rintro _ ⟨⟩; rfl) rfl hreach₃ hhistory
      nofun⟩

end Plant

end LibvirtProvider

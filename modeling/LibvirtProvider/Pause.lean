import LibvirtProvider.ClusterController
import LibvirtProvider.Status

/-!
# Paused objects

An object is paused by an annotation of its own, or with its `Cluster`. Both
controllers look at that in `reconcileNormal`, after they have turned aside the
objects that are being deleted; and the machine controller takes back ready and
provisioned on its way out. So a paused object is left alone
(`MachineVisit.Untouched`, `ClusterVisit.Untouched`) in some situations only
(`MachineVisit.Spares`, `ClusterVisit.Spares`), which `paused_untouched_iff`
says for every run of the two controllers.
-/

namespace LibvirtProvider

open Interaction

/-! ## Machines -/

/-- A reconcile of a machine: its course and its calls, and the machine as it
was stored before and after it. Calls are kept, because a reconcile may change
a host and leave the object as it was. -/
structure MachineVisit where
  course : Course
  events : List (Event ControllerSig)
  before : Option LibvirtMachine
  after : Option LibvirtMachine

namespace MachineVisit

variable (v : MachineVisit)

/-- The machine is paused, or its cluster was when it was read. -/
def Paused : Prop :=
  ∃ m, v.before = some m ∧ (m.pausedAnnotation = true
    ∨ ∃ cluster, v.course.cluster = some cluster ∧ cluster.paused = some true)

/-- The provider is not asked to change anything, nothing is patched, and the
object is what it was. -/
def Untouched : Prop :=
  v.after = v.before
  ∧ ∀ ev ∈ v.events, ControllerOp.Reads ev.1 ∧ ControllerOp.asks ev.1 = false

/-- If the reconcile gets to the object, it is not being deleted and neither
ready nor provisioned. -/
def Spares : Prop :=
  v.course.loaded = true → ∀ m, v.before = some m →
    m.deletionTimestamp = false ∧ m.status.ready = false ∧ m.status.provisioned = false

end MachineVisit

section Machine

variable {s s' : Attended} {tr : List (Event ControllerSig)}

/-- The course says whether the provider was asked to change something. -/
theorem asked_iff {α : Type} {p : ControllerM α} {a : α} (hp : p.Calls ControllerOp.Inner)
    (h : Prog.Exec attendedSem p s tr s' a) :
    s'.course.asked = true ↔ s.course.asked = true ∨ ∃ ev ∈ tr, ControllerOp.asks ev.1 = true := by
  induction p generalizing s tr with
  | done b =>
    obtain ⟨rfl, rfl, -⟩ := h
    simp
  | call o k ih =>
    obtain ⟨r, s₁, tr₁, hs, rfl, hk⟩ := h
    have hnext : s₁.course.asked = (s.course.asked || ControllerOp.asks o) := by
      rw [attendedSem_course hs]
      match o with
      | .provider o => cases o <;> simp [Course.next, Course.nextAsked, ControllerOp.asks]
      | .api o =>
        cases o with
        | getLibvirtMachine => exact hp.1.elim
        | _ => simp [Course.next, Course.nextAsked, ControllerOp.asks]
    rw [ih r (hp.2 r) hk, hnext]
    simp [or_assoc]

theorem withReady_self {m : LibvirtMachine} {b : Bool} (h : m.status.ready = b) :
    m.withReady b = m := by
  subst h
  rfl

theorem withProvisioned_self {m : LibvirtMachine} {b : Bool} (h : m.status.provisioned = b) :
    m.withProvisioned b = m := by
  subst h
  rfl

theorem exec_patchIf_true {differs : Bool} {request : ControllerM (Except ApiError Unit)}
    {r : Except ApiError Unit} (hd : differs = true)
    (h : Prog.Exec attendedSem (patchIf differs request) s tr s' r) :
    Prog.Exec attendedSem request s tr s' r := by
  subst hd
  exact h

/-- A status that was changed is patched. -/
theorem helperPatch_event {before after : LibvirtMachine} {err : Option GoError}
    (h : Prog.Exec attendedSem (helperPatch before after) s tr s' err)
    (hne : after.status ≠ before.status) : ∃ ev ∈ tr, ¬ ControllerOp.Reads ev.1 := by
  obtain ⟨_, s₁, tr₁, tr₂, rfl, -, h⟩ := Prog.exec_bind.mp h
  obtain ⟨_, s₂, tr₂, tr₃, rfl, -, h⟩ := Prog.exec_bind.mp h
  obtain ⟨_, s₃, tr₃, tr₄, rfl, h, -⟩ := Prog.exec_bind.mp h
  obtain ⟨-, rfl⟩ := Prog.exec_perform.mp (exec_patchIf_true (decide_eq_true hne) h)
  refine ⟨_, List.mem_append_right _ (List.mem_append_right _ (List.mem_append_left _
    (List.mem_singleton_self _))), ?_⟩
  exact fun h => nomatch h

/-- **A reconcile leaves a paused machine alone exactly if it is spared.** The
pause is looked at after the deletion, and its branch takes back ready and
provisioned; there is no other way to be touched. -/
theorem untouched_iff_of_reconcile {outcome : Outcome} {a : ApiState}
    (h : Prog.Exec attendedSem reconcile ⟨a, {}⟩ tr s' outcome)
    (hpaused : MachineVisit.Paused ⟨s'.course, tr, a.machine, s'.api.machine⟩) :
    MachineVisit.Untouched ⟨s'.course, tr, a.machine, s'.api.machine⟩
      ↔ MachineVisit.Spares ⟨s'.course, tr, a.machine, s'.api.machine⟩ := by
  rcases reconcile_attended h with ⟨hapi, hloaded, -, htr⟩
    | ⟨m, after, out, err, tr₀, tr₁, tr₂, s₁, rfl, hm, htr₀, h₁, h₂, -⟩
  · refine iff_of_true ⟨congrArg ApiState.machine hapi, htr⟩ fun hl => ?_
    cases hloaded.symm.trans hl
  obtain ⟨hmachine, hexit⟩ := obeys_attended reconcileMachine_course h₁
  have hcourse := obeys_attended (helperPatch_course hmachine hexit) h₂
  have hapi : s₁.api = a := (reconcileMachine_inner m).keeps Attended.api
    (fun s o r s' ho hs => attendedSem_reads ho.reads hs) h₁
  have hasked := asked_iff (reconcileMachine_inner m) h₁
  have hreads (ev : Event ControllerSig) (hev : ev ∈ tr₁) : ControllerOp.Reads ev.1 :=
    ((reconcileMachine_inner m).of_mem h₁ hev).reads
  -- what comes back as it was, and did not ask for anything, is left alone
  have hself (heq : after = m) (hidle : s₁.course.asked = false) :
      MachineVisit.Untouched ⟨s'.course, tr₀ ++ (tr₁ ++ tr₂), a.machine, s'.api.machine⟩ := by
    rw [heq, helperPatch_self] at h₂
    obtain ⟨rfl, rfl, -⟩ := h₂
    refine ⟨congrArg ApiState.machine hapi, ?_⟩
    rw [List.append_nil]
    refine List.forall_mem_append.mpr ⟨htr₀, fun ev hev => ⟨hreads ev hev, ?_⟩⟩
    by_contra hask
    rw [hasked.mpr (Or.inr ⟨ev, hev, Bool.eq_true_of_not_eq_false hask⟩)] at hidle
    cases hidle
  have hread {cluster : Cluster} (hcluster : s₁.course.cluster = some cluster) :
      isPaused cluster m = true := by
    obtain ⟨m', hm', hp⟩ := hpaused
    cases hm.symm.trans hm'
    rcases hp with hp | ⟨cluster', hcluster', hp⟩
    · simp [isPaused, hp]
    · rw [hcourse] at hcluster'
      cases hcluster.symm.trans hcluster'
      simp [isPaused, hp]
  have hdeleted (hdel : m.deletionTimestamp = true) (hloaded : s₁.course.loaded = true)
      (hask : s₁.course.asked = true) :
      MachineVisit.Untouched ⟨s'.course, tr₀ ++ (tr₁ ++ tr₂), a.machine, s'.api.machine⟩
      ↔ MachineVisit.Spares ⟨s'.course, tr₀ ++ (tr₁ ++ tr₂), a.machine, s'.api.machine⟩ := by
    refine iff_of_false ?_ fun hspares => ?_
    · rintro ⟨-, htr⟩
      obtain ⟨ev, hev, hask⟩ := (hasked.mp hask).resolve_left Bool.false_ne_true
      have hnot := (htr ev (List.mem_append_right _ (List.mem_append_left _ hev))).2
      cases hask.symm.trans hnot
    · rw [← hcourse] at hloaded
      cases hdel.symm.trans (hspares hloaded m hm).1
  dsimp only at hexit
  generalize out.err = outErr at hexit
  cases hexit with
  | unread hloaded hidle =>
    refine iff_of_true (hself rfl hidle.2) fun hl => ?_
    rw [hcourse] at hl
    cases hloaded.symm.trans hl
  | paused hloaded hcluster hdel _ hidle =>
    constructor
    · rintro ⟨-, htr⟩ - m' hm'
      cases hm.symm.trans hm'
      refine ⟨hdel, ?_⟩
      -- a status that is taken back is patched
      by_contra hne
      obtain ⟨ev, hev, hpatch⟩ := helperPatch_event h₂ fun heq => hne
        ⟨(congrArg LibvirtMachineStatus.ready heq).symm,
          (congrArg LibvirtMachineStatus.provisioned heq).symm⟩
      exact hpatch (htr ev (List.mem_append_right _ (List.mem_append_right _ hev))).1
    · intro hspares
      obtain ⟨-, hready, hprovisioned⟩ := hspares (by rw [hcourse]; exact hloaded) m hm
      refine hself ?_ hidle.2
      rw [withReady_self hready, withProvisioned_self hprovisioned]
  | adopted _ hcluster _ hp | waiting _ hcluster _ hp =>
    cases hp.symm.trans (hread hcluster)
  | undeleted hloaded _ hdel hask => exact hdeleted hdel hloaded hask
  | deleted hloaded _ hdel _ _ hask => exact hdeleted hdel hloaded hask
  | stateless hopen | lost hopen | dataless hopen | unreadable hopen | uncreated hopen
  | created hopen | unstarted hopen | started hopen | running hopen | unknown hopen =>
    cases hopen.paused.symm.trans (hread hopen.read)

end Machine

/-! ## Clusters -/

/-- The owner that was read. -/
def ownerRead : List (Event ClusterSig) → Option OwnerCluster
  | [] => none
  | ⟨.getOwnerCluster _, r⟩ :: _ => (Except.toOption r).join
  | _ :: events => ownerRead events

/-- Whether the patch helper was made, the last thing before the object is
turned to. -/
def helperMade : List (Event ClusterSig) → Bool
  | [] => false
  | ⟨.newHelper, r⟩ :: _ => Except.isOk r
  | _ :: events => helperMade events

/-- A reconcile of a cluster: its calls, and the object as it was stored before
and after it. -/
structure ClusterVisit where
  events : List (Event ClusterSig)
  before : Option LibvirtClusterObject
  after : Option LibvirtClusterObject

namespace ClusterVisit

variable (v : ClusterVisit)

/-- The object is paused, or its cluster was when it was read. -/
def Paused : Prop :=
  ∃ c, v.before = some c ∧ (c.pausedAnnotation = true
    ∨ ∃ owner, ownerRead v.events = some owner ∧ owner.paused = some true)

/-- Nothing is patched, and the object is what it was. -/
def Untouched : Prop :=
  v.after = v.before ∧ ∀ ev ∈ v.events, ClusterOp.isPatch ev.1 = false

/-- If the reconcile gets to the object, it is not being deleted, or it does not
have the finalizer. -/
def Spares : Prop :=
  helperMade v.events = true → (ownerRead v.events).isSome = true → ∀ c, v.before = some c →
    c.deletionTimestamp = true → libvirtClusterFinalizer ∉ c.finalizers

end ClusterVisit

section Cluster

variable {s s' : Option LibvirtClusterObject} {tr : List (Event ClusterSig)}

/-- Until the patch, nothing is patched. -/
theorem reconcileOwned_calls (c : LibvirtClusterObject) (owner : OwnerCluster) :
    (LibvirtClusterReconciler.reconcileOwned c owner).Calls
      (fun o => ClusterOp.isPatch o = false) := by
  unfold LibvirtClusterReconciler.reconcileOwned
  dsimp only
  split
  · trivial
  unfold LibvirtClusterReconciler.reconcileNormal
  dsimp only
  split
  · trivial
  split
  · trivial
  split
  · trivial
  refine ⟨rfl, fun r => ?_⟩
  match r with
  | .error _ => trivial
  | .ok _ =>
    refine ⟨rfl, fun r => ?_⟩
    match r with
    | .error _ | .ok () => trivial

/-- Finalizers that were changed are patched. -/
theorem helperPatch_cluster_event {before after : LibvirtClusterObject} {err : Option GoError}
    (h : Prog.Exec clusterSem (LibvirtClusterReconciler.helperPatch before after) s tr s' err)
    (hne : after.finalizers ≠ before.finalizers) : ∃ ev ∈ tr, ClusterOp.isPatch ev.1 = true := by
  unfold LibvirtClusterReconciler.helperPatch at h
  simp only [if_pos hne] at h
  split at h
  · obtain ⟨_, s₁, tr₁, -, rfl, _, s₂, tr₂, -, rfl, -⟩ := h
    exact ⟨_, List.mem_cons_of_mem _ List.mem_cons_self, rfl⟩
  · obtain ⟨_, s₂, tr₂, -, rfl, -⟩ := h
    exact ⟨_, List.mem_cons_self, rfl⟩

/-- **A reconcile of a cluster, in two parts**: it does not get to the object,
or it takes one of the exits, and then comes the patch. -/
theorem reconcile_cluster_cases {outcome : Outcome}
    (h : Prog.Exec clusterSem LibvirtClusterReconciler.reconcile s tr s' outcome) :
    (s' = s ∧ (∀ ev ∈ tr, ClusterOp.isPatch ev.1 = false)
      ∧ (helperMade tr = false ∨ ownerRead tr = none))
    ∨ ∃ c owner after out err tr₀ tr₁ tr₂, tr = tr₀ ++ (tr₁ ++ tr₂) ∧ s = some c
      ∧ (∀ ev ∈ tr₀, ClusterOp.isPatch ev.1 = false)
      ∧ helperMade tr = true ∧ ownerRead tr = some owner
      ∧ Prog.Exec clusterSem (LibvirtClusterReconciler.reconcileOwned c owner) s tr₁ s (after, out)
      ∧ Prog.Exec clusterSem (LibvirtClusterReconciler.helperPatch c after) s tr₂ s' err := by
  obtain ⟨r, s₁, tr₁, hs, rfl, h⟩ := h
  obtain ⟨rfl, hread⟩ := clusterSem_getLibvirtCluster hs
  match r with
  | .error .notFound =>
    obtain ⟨rfl, rfl, -⟩ := h
    exact Or.inl ⟨rfl, List.forall_mem_singleton.mpr rfl, Or.inl rfl⟩
  | .error (.other msg) =>
    obtain ⟨rfl, rfl, -⟩ := h
    exact Or.inl ⟨rfl, List.forall_mem_singleton.mpr rfl, Or.inl rfl⟩
  | .ok c =>
  have hc := hread c rfl
  obtain ⟨r, s₂, tr₂, hs, rfl, h⟩ := h
  obtain rfl := clusterSem_keeps rfl hs
  match r with
  | .error err =>
    obtain ⟨rfl, rfl, -⟩ := h
    exact Or.inl ⟨rfl, List.forall_mem_cons.mpr ⟨rfl, List.forall_mem_singleton.mpr rfl⟩,
      Or.inl rfl⟩
  | .ok owner =>
  obtain ⟨r, s₃, tr₃, hs, rfl, h⟩ := h
  obtain rfl := clusterSem_keeps rfl hs
  have hfirst (r₀ : Except ApiError LibvirtClusterObject)
      (r₁ : Except GoError (Option OwnerCluster)) (r₂ : Except GoError Unit) :
      ∀ ev ∈ [(⟨.getLibvirtCluster, r₀⟩ : Event ClusterSig), ⟨.getOwnerCluster c, r₁⟩,
        ⟨.newHelper, r₂⟩], ClusterOp.isPatch ev.1 = false :=
    List.forall_mem_cons.mpr ⟨rfl, List.forall_mem_cons.mpr ⟨rfl,
      List.forall_mem_singleton.mpr rfl⟩⟩
  match r with
  | .error err =>
    obtain ⟨rfl, rfl, -⟩ := h
    exact Or.inl ⟨rfl, hfirst _ _ _, Or.inl rfl⟩
  | .ok () =>
    change Prog.Exec clusterSem (LibvirtClusterReconciler.reconcileCluster c owner >>= _)
      _ _ _ _ at h
    obtain ⟨⟨after, out⟩, s₄, tr₄, tr₅, rfl, hwork, h⟩ := Prog.exec_bind.mp h
    obtain ⟨err, s₅, tr₅, tr₆, rfl, hpatch, rfl, rfl, -⟩ := Prog.exec_bind.mp h
    rw [List.append_nil]
    cases owner with
    | none =>
      obtain ⟨rfl, rfl, heq⟩ := hwork
      cases heq
      change Prog.Exec clusterSem (LibvirtClusterReconciler.helperPatch c c) _ _ _ _ at hpatch
      rw [LibvirtClusterReconciler.helperPatch_self] at hpatch
      obtain ⟨rfl, rfl, -⟩ := hpatch
      exact Or.inl ⟨rfl, hfirst _ _ _, Or.inr rfl⟩
    | some owner =>
      obtain rfl := (reconcileOwned_calls c owner).keeps id
        (fun s o r s' ho hs => clusterSem_keeps ho hs) hwork
      exact Or.inr ⟨c, owner, after, out, err, _, tr₄, tr₅, rfl, hc, hfirst _ _ _, rfl, rfl,
        hwork, hpatch⟩

/-- **A reconcile leaves a paused cluster alone exactly if it is spared.**
Here the pause branch writes nothing, and the deletion is the only exception. -/
theorem untouched_iff_of_reconcile_cluster {outcome : Outcome}
    (h : Prog.Exec clusterSem LibvirtClusterReconciler.reconcile s tr s' outcome)
    (hpaused : ClusterVisit.Paused ⟨tr, s, s'⟩) :
    ClusterVisit.Untouched ⟨tr, s, s'⟩ ↔ ClusterVisit.Spares ⟨tr, s, s'⟩ := by
  rcases reconcile_cluster_cases h with ⟨rfl, htr, hnot⟩
    | ⟨c, owner, after, out, err, tr₀, tr₁, tr₂, rfl, hc, htr₀, hhelper, howner, hwork, hpatch⟩
  · refine iff_of_true ⟨rfl, htr⟩ fun hhelper howner => ?_
    rcases hnot with hnot | hnot
    · cases hnot.symm.trans hhelper
    · dsimp only at howner
      rw [hnot] at howner
      cases howner
  have hp : Pass.Paused ⟨owner, c, tr₁, after⟩ := by
    obtain ⟨c', hc', hp⟩ := hpaused
    cases hc.symm.trans hc'
    unfold Pass.Paused LibvirtClusterReconciler.isPaused
    rcases hp with hp | ⟨owner', howner', hp⟩
    · simp [hp]
    · cases howner.symm.trans howner'
      simp [hp]
  -- what comes back as it was is left alone
  have hself (heq : after = c) :
      ClusterVisit.Untouched ⟨tr₀ ++ (tr₁ ++ tr₂), s, s'⟩ := by
    rw [heq, LibvirtClusterReconciler.helperPatch_self] at hpatch
    obtain ⟨rfl, rfl, -⟩ := hpatch
    rw [List.append_nil]
    exact ⟨rfl, List.forall_mem_append.mpr
      ⟨htr₀, fun ev hev => (reconcileOwned_calls c owner).of_mem hwork hev⟩⟩
  cases reconcileOwned_exit hwork with
  | paused hdel _ hafter =>
    refine iff_of_true (hself hafter) fun _ _ c' hc' hdel' => ?_
    cases hc.symm.trans hc'
    cases hdel.symm.trans hdel'
  | left hdel hfin hafter =>
    refine iff_of_true (hself hafter) fun _ _ c' hc' _ => ?_
    cases hc.symm.trans hc'
    exact hfin
  | removed hdel hfin hafter =>
    refine iff_of_false ?_ fun hspares => hspares hhelper (by rw [howner]; rfl) c hc hdel hfin
    rintro ⟨-, htr⟩
    obtain ⟨ev, hev, hpatched⟩ := helperPatch_cluster_event hpatch fun heq =>
      hafter (show _ ∈ after.finalizers by rw [heq]; exact hfin)
    cases hpatched.symm.trans (htr ev (List.mem_append_right _ (List.mem_append_right _ hev)))
  | adopted hnot | noEndpoint hnot | failed hnot | provisioned hnot => exact absurd hp hnot

end Cluster

/-! ## Both controllers -/

/-- The stored objects. -/
structure Objects where
  machine : Option LibvirtMachine
  cluster : Option LibvirtClusterObject

/-- The objects, as the machine controller knows them. -/
def Objects.api (s : Objects) : ApiState :=
  ⟨s.machine, s.cluster.map LibvirtClusterObject.toLibvirtCluster⟩

/-- A reconcile of one of the controllers. -/
inductive Handling where
  | machine (v : MachineVisit)
  | cluster (v : ClusterVisit)

namespace Handling

/-- The object is paused. -/
def Paused : Handling → Prop
  | machine v => v.Paused
  | cluster v => v.Paused

/-- The object is left alone. -/
def Untouched : Handling → Prop
  | machine v => v.Untouched
  | cluster v => v.Untouched

/-- The situation is one in which it is. -/
def Spares : Handling → Prop
  | machine v => v.Spares
  | cluster v => v.Spares

end Handling

/-- **The steps of the two controllers**: a reconcile with any answers, or any
change of the objects by others. Nothing is assumed of the changes, so that
objects are paused, resumed and deleted at will. -/
inductive PauseStep (s : Objects) : Option Handling → Objects → Prop where
  | machine {tr : List (Event ControllerSig)} {s₁ : Attended} {outcome : Outcome}
      (h : Prog.Exec attendedSem reconcile ⟨s.api, {}⟩ tr s₁ outcome) :
      PauseStep s (some (.machine ⟨s₁.course, tr, s.machine, s₁.api.machine⟩))
        { s with machine := s₁.api.machine }
  | cluster {tr : List (Event ClusterSig)} {c : Option LibvirtClusterObject} {outcome : Outcome}
      (h : Prog.Exec clusterSem LibvirtClusterReconciler.reconcile s.cluster tr c outcome) :
      PauseStep s (some (.cluster ⟨tr, s.cluster, c⟩)) { s with cluster := c }
  | outside (s' : Objects) : PauseStep s none s'

theorem PauseStep.untouched_iff {s s' : Objects} {v : Handling} (h : PauseStep s (some v) s')
    (hv : v.Paused) : v.Untouched ↔ v.Spares := by
  cases h with
  | machine h => exact untouched_iff_of_reconcile h hv
  | cluster h => exact untouched_iff_of_reconcile_cluster h hv

/-- **Paused means untouched.** In every run of the two controllers, with
pauses and deletions coming and going between reconciles: the reconciles of
paused objects leave them alone, exactly if each of them finds its object not
being deleted – a cluster may be, without the finalizer – and a machine neither
ready nor provisioned. -/
theorem paused_untouched_iff {s s' : Objects} {vs : List (Option Handling)}
    (h : Run PauseStep s vs s') :
    (∀ v, some v ∈ vs → v.Paused → v.Untouched) ↔ ∀ v, some v ∈ vs → v.Paused → v.Spares := by
  refine forall₃_congr fun v hv hpaused => ?_
  obtain ⟨s₁, s₂, hstep⟩ := h.exists_step hv
  exact hstep.untouched_iff hpaused

/-- One reconcile of a machine with given answers. -/
def pausedOn (m : LibvirtMachine) (c : SystemChoice) : Option MachineVisit :=
  (Prog.runWith attendedStep c reconcile ⟨⟨some m, some sampleCluster⟩, {}⟩ []).map fun r =>
    ⟨r.2.1.course, r.1, some m, r.2.1.api.machine⟩

theorem run_of_pausedOn {m : LibvirtMachine} {c : SystemChoice} {v : MachineVisit}
    (h : pausedOn m c = some v) :
    ∃ s, Run PauseStep ⟨some m, some sampleClusterObject⟩ [some (.machine v)] s := by
  obtain ⟨⟨tr, s, outcome⟩, hr, rfl⟩ := Option.map_eq_some_iff.mp h
  exact ⟨_, .snoc (.nil _) (.machine (Prog.exec_of_runWith hr))⟩

/-- A machine that is paused from the start is left alone. -/
theorem paused_untouched_new :
    ∃ v s, Run PauseStep ⟨some { sampleMachine with pausedAnnotation := true },
        some sampleClusterObject⟩ [some v] s
      ∧ v.Paused ∧ v.Untouched := by
  have hrun : (pausedOn { sampleMachine with pausedAnnotation := true }
      { api := sampleAnswers }).isSome = true := by decide +kernel
  obtain ⟨v, hv⟩ := Option.isSome_iff_exists.mp hrun
  have hbefore : v.before = some { sampleMachine with pausedAnnotation := true } := by
    obtain ⟨r, -, rfl⟩ := Option.map_eq_some_iff.mp hv
    rfl
  have hpaused : (Handling.machine v).Paused := ⟨_, hbefore, Or.inl rfl⟩
  obtain ⟨s, hs⟩ := run_of_pausedOn hv
  refine ⟨.machine v, s, hs, hpaused, (paused_untouched_iff hs).mpr ?_ _ List.mem_cons_self hpaused⟩
  intro v' hv' _
  cases List.mem_singleton.mp hv'
  intro _ m hm
  cases hbefore.symm.trans hm
  exact ⟨rfl, rfl, rfl⟩

/-- **A machine of a paused cluster that is being deleted is deleted on the
host.** The pause does not hold it back, because it is not asked for. -/
theorem paused_deleted :
    ∃ v s, Run PauseStep ⟨some { provisionedMachine with deletionTimestamp := true },
        some sampleClusterObject⟩ [some v] s
      ∧ v.Paused ∧ ¬ v.Untouched := by
  have hrun : (pausedOn { provisionedMachine with deletionTimestamp := true }
      { api := { sampleAnswers with
          ownerCluster := some ⟨"prod", "default", "prod", some true, some true⟩ } }).map
      (fun v => (v.course.cluster.map Cluster.paused,
        v.events.any fun ev => ControllerOp.asks ev.1)) = some (some (some true), true) := by
    decide +kernel
  obtain ⟨v, hv, heq⟩ := Option.map_eq_some_iff.mp hrun
  obtain ⟨hcluster, hasks⟩ := Prod.mk.inj heq
  obtain ⟨cluster, hcluster, hpaused⟩ := Option.map_eq_some_iff.mp hcluster
  have hbefore : v.before = some { provisionedMachine with deletionTimestamp := true } := by
    obtain ⟨r, -, rfl⟩ := Option.map_eq_some_iff.mp hv
    rfl
  obtain ⟨s, hs⟩ := run_of_pausedOn hv
  refine ⟨.machine v, s, hs, ⟨_, hbefore, Or.inr ⟨cluster, hcluster, hpaused⟩⟩, ?_⟩
  rintro ⟨-, htr⟩
  obtain ⟨ev, hev, hask⟩ := List.any_eq_true.mp hasks
  cases hask.symm.trans (htr ev hev).2

end LibvirtProvider

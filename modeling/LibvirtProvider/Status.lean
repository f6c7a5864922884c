import LibvirtProvider.Exits
import LibvirtProvider.Finalizer

/-!
# What the status says

Whether a machine is provisioned is written by about ten exits of a reconcile,
and so are the conditions. Here the provider may answer anything at all: any
state of the domain, any error. The API server is that of `Api`; next to it
stands the course of the reconcile that is under way (`Attended`), so that a
statement can speak of what that reconcile has read.

The first part follows `status.initialization.provisioned` call by call, with
edits of the object between any two calls and reconciles that are cut off
(`provisioned_stays_iff`). The second part follows the conditions from reconcile
to reconcile, in the object as it is stored (`status_truthful_iff`).
-/

namespace LibvirtProvider

open Interaction

/-! ## Any provider -/

/-- **The API server, and the course of the reconcile that is under way.** The
course is a record and no part of the system; it lets a statement say of a
state what the reconcile in it has read. -/
structure Attended where
  api : ApiState
  course : Course

/-- What an operation answers. -/
def SystemChoice.result (c : SystemChoice) : (o : MachineOp) → o.Result
  | .getMachineState _ => c.answer c.state
  | .createMachine _ => c.answer ()
  | .startMachine _ => c.answer ()
  | .deleteMachine _ => c.answer ()
  | .getMachineAddress _ => c.answer c.address

/-- **The calls of the controller**, with a provider that may answer anything.
What is proved here does not depend on what a host is like. -/
def attendedStep (s : Attended) :
    (o : ControllerSig.Op) → SystemChoice → Option (ControllerSig.Ans o × Attended)
  | .api o, c =>
    (apiStep s.api o c.api).map fun r => (r.1, ⟨r.2, s.course.next (.api o) r.1⟩)
  | .provider o, c => some (c.result o, ⟨s.api, s.course.next (.provider o) (c.result o)⟩)

/-- What the calls mean, over every choice of the environment. -/
def attendedSem : Sem ControllerSig Attended := Prog.semOf attendedStep

section Attended

variable {s s' : Attended}

theorem attendedSem_api {o : ApiOp} {r : o.Result} (h : attendedSem s (.api o) r s') :
    apiSem s.api o r s'.api ∧ s'.course = s.course.next (.api o) r := by
  obtain ⟨c, hc⟩ := h
  obtain ⟨⟨r', a⟩, ha, heq⟩ := Option.map_eq_some_iff.mp hc
  cases heq
  exact ⟨⟨_, ha⟩, rfl⟩

theorem attendedSem_provider {o : MachineOp} {r : o.Result} (h : attendedSem s (.provider o) r s') :
    s'.api = s.api ∧ s'.course = s.course.next (.provider o) r := by
  obtain ⟨c, hc⟩ := h
  cases hc
  exact ⟨rfl, rfl⟩

/-- The course is kept, whatever is called. -/
theorem attendedSem_course {o : ControllerSig.Op} {r : ControllerSig.Ans o}
    (h : attendedSem s o r s') : s'.course = s.course.next o r := by
  match o with
  | .api o => exact (attendedSem_api h).2
  | .provider o => exact (attendedSem_provider h).2

/-- The machine that is stored after a call was stored before it, or a patch has
made it of the one that was. -/
theorem attendedSem_stored {o : ControllerSig.Op} {r : ControllerSig.Ans o}
    (h : attendedSem s o r s') {m : LibvirtMachine} (hm : s'.api.machine = some m) :
    s.api.machine = some m
    ∨ ∃ (x : ApiOp) (f : LibvirtMachine → LibvirtMachine) (m₀ : LibvirtMachine), o = .api x
      ∧ x.edit = some f ∧ s.api.machine = some m₀ ∧ m = f m₀ := by
  match o with
  | .provider o => exact Or.inl ((attendedSem_provider h).1 ▸ hm)
  | .api o =>
    rcases apiSem_cases (attendedSem_api h).1 with heq | ⟨f, m₀, hf, hm₀, -, heq⟩
    · exact Or.inl (heq ▸ hm)
    · rw [heq] at hm
      exact Or.inr ⟨o, f, m₀, rfl, hf, hm₀, LibvirtMachine.eq_of_stores hm⟩

/-- A run of a program that keeps to the monitor ends in the course the
monitor is in. -/
theorem obeys_attended {α : Type} {p : ControllerM α} {Φ : Course → α → Prop}
    {tr : List (Event ControllerSig)} {a : α} (hp : p.Obeys courseMonitor Φ s.course)
    (h : Prog.Exec attendedSem p s tr s' a) : Φ s'.course a := by
  obtain ⟨q, hq, hΦ⟩ := hp.exec (R := fun q s => s.course = q)
    (fun q t o r t' ht _ hs => by rw [attendedSem_course hs, ht]; rfl) rfl h
  rw [hq]
  exact hΦ

end Attended

/-! ## Provisioned is kept -/

/-- **The machine is provisioned**: it says so and has its provider ID. -/
def LibvirtMachine.Provisioned (m : LibvirtMachine) : Prop :=
  m.status.provisioned = true ∧ m.spec.providerID.isSome = true

namespace Course

variable (q : Course)

/-- The course of a reconcile that leaves a machine provisioned: if it gets to
the object, that is not paused and has its finalizer, the infrastructure of
the cluster is there, and the state of the domain is not unknown. Each of
these has a branch that takes the flag back. -/
def Keeps : Prop :=
  q.loaded = true → ∀ m cluster, q.machine = some m → m.Provisioned →
    m.deletionTimestamp = false → q.cluster = some cluster →
    isPaused cluster m = false ∧ libvirtMachineFinalizer ∈ m.finalizers
    ∧ cluster.infrastructureProvisioned = some true ∧ q.state ≠ some .unknown

/-- The domain was created, started or found running. -/
def Provides : Prop :=
  q.state = some .notFound ∧ q.created = true ∨ q.state = some .stopped ∧ q.started = true
  ∨ q.state = some .running

end Course

section Exit

variable {q : Course} {m after : LibvirtMachine} {err : Option GoError}

/-- A provider ID is given where the domain is up. -/
theorem Course.Exit.provides (h : q.Exit m after err)
    (hid : after.spec.providerID ≠ m.spec.providerID) : q.Provides := by
  cases h with
  | created _ hstate _ hcreated => exact Or.inl ⟨hstate, hcreated⟩
  | started _ hstate hstarted => exact Or.inr (Or.inl ⟨hstate, hstarted⟩)
  | running _ hstate => exact Or.inr (Or.inr hstate)
  | _ => exact absurd rfl hid

/-- What is up is provisioned. -/
theorem Course.Exit.provisioned_of_provides (h : q.Exit m after err) (hq : q.Provides) :
    after.status.provisioned = true := by
  cases h with
  | created | started => rfl
  | running _ _ _ hafter => rcases hafter with rfl | ⟨l, rfl⟩ <;> rfl
  | _ => simp_all [Course.Provides, Course.Idle]

/-- A machine that goes to the patch as provisioned was so, or is up. -/
theorem Course.Exit.provides_of_provisioned {q : Course} {m after : LibvirtMachine}
    {err : Option GoError} (h : q.Exit m after err) (hp : after.status.provisioned = true) :
    m.status.provisioned = true ∨ q.Provides := by
  cases h with
  | created _ hstate _ hcreated => exact Or.inr (Or.inl ⟨hstate, hcreated⟩)
  | started _ hstate hstarted => exact Or.inr (Or.inr (Or.inl ⟨hstate, hstarted⟩))
  | running _ hstate => exact Or.inr (Or.inr (Or.inr hstate))
  | unread | stateless | lost | unstarted | undeleted | deleted => exact Or.inl hp
  | paused | adopted | waiting | dataless | unreadable | uncreated | unknown => cases hp

/-- **A reconcile leaves a provisioned machine provisioned, exactly on the
courses that keep it.** That is one exit at a time, for all of them. -/
theorem Course.Exit.provisioned_iff (h : q.Exit m after err) (hm : q.machine = some m)
    (hp : m.Provisioned) : after.status.provisioned = true ↔ q.Keeps := by
  have hkeeps {cluster : Cluster} (hopen : q.Open m cluster) (hstate : q.state ≠ some .unknown) :
      q.Keeps := by
    intro _ m' cluster' hm' _ _ hcluster
    cases hm.symm.trans hm'
    cases hopen.read.symm.trans hcluster
    exact ⟨hopen.paused, hopen.finalizer, hopen.infrastructure, hstate⟩
  have hdeleted (hdel : m.deletionTimestamp = true) : q.Keeps := by
    intro _ m' _ hm' _ hdel'
    cases hm.symm.trans hm'
    cases hdel.symm.trans hdel'
  have hnone (hid : m.spec.providerID = none) : False := by
    have := hp.2
    rw [hid] at this
    cases this
  cases h with
  | unread hloaded =>
    refine iff_of_true hp.1 fun h => ?_
    cases hloaded.symm.trans h
  | paused hloaded hcluster hdel hpaused =>
    refine iff_of_false (by simp) fun h => ?_
    cases hpaused.symm.trans (h hloaded m _ hm hp hdel hcluster).1
  | adopted hloaded hcluster hdel _ hfin =>
    exact iff_of_false (by simp) fun h => hfin (h hloaded m _ hm hp hdel hcluster).2.1
  | waiting hloaded hcluster hdel _ hinfra =>
    exact iff_of_false (by simp) fun h => hinfra (h hloaded m _ hm hp hdel hcluster).2.2.1
  | stateless hopen hstate => exact iff_of_true hp.1 (hkeeps hopen (by simp [hstate]))
  | lost hopen hstate => exact iff_of_true hp.1 (hkeeps hopen (by simp [hstate]))
  | dataless _ _ hid | unreadable _ _ hid | uncreated _ _ hid | created _ _ hid =>
    exact (hnone hid).elim
  | unstarted hopen hstate => exact iff_of_true hp.1 (hkeeps hopen (by simp [hstate]))
  | started hopen hstate => exact iff_of_true rfl (hkeeps hopen (by simp [hstate]))
  | running hopen hstate _ hafter =>
    refine iff_of_true ?_ (hkeeps hopen (by simp [hstate]))
    rcases hafter with rfl | ⟨l, rfl⟩ <;> rfl
  | unknown hopen hstate =>
    exact iff_of_false (by simp) fun h =>
      (h hopen.loaded m _ hm hp hopen.deletion hopen.read).2.2.2 hstate
  | undeleted _ _ hdel => exact iff_of_true hp.1 (hdeleted hdel)
  | deleted _ _ hdel => exact iff_of_true hp.1 (hdeleted hdel)

end Exit

/-! ### Along a run -/

/-- What others do between two calls: they edit the object, but neither its
status nor its provider ID, and the `LibvirtCluster`. -/
inductive Edited (s : Attended) : Attended → Prop where
  | machine {m m' : LibvirtMachine} (hm : s.api.machine = some m) (hstatus : m'.status = m.status)
      (hid : m'.spec.providerID = m.spec.providerID) :
      Edited s { s with api := { s.api with machine := m'.stores } }
  | cluster (c : Option LibvirtCluster) :
      Edited s { s with api := { s.api with libvirtCluster := c } }

/-- The controller with its API server. -/
abbrev Attendance := Pool Unit Attended ControllerSig Outcome

/-- Before the first reconcile. -/
def Attendance.initial (api : ApiState) : Attendance where
  state := { api := api, course := {} }
  prog _ := .done {}

/-- **The runs** all of whose calls meet the guard: reconciles one after the
other, each cut off anywhere or not at all, and edits between any two calls. -/
def Attendance.Reach (guard : Attended → Event ControllerSig → Prop) :
    Attendance → Attendance → Prop :=
  Pool.Reach attendedSem (fun _ p => p = reconcile) Edited guard

/-- No call brings a reconcile of a provisioned machine to a course that does
not keep it. -/
def KeepsProvisioned (s : Attended) (ev : Event ControllerSig) : Prop :=
  (s.course.next ev.1 ev.2).Keeps

/-- What is known along a run, for the monitor's course and the state. The
stored object may have changed since it was read, and a patch sends
differences: the last two fields say that what the reconcile does not know of
was its own doing. -/
structure Follows (q : Course) (s : Attended) : Prop where
  course : q.machine.isSome = true → s.course = q
  keeps : q.Keeps
  providerID : ∀ before stored, q.machine = some before → s.api.machine = some stored →
    before.spec.providerID = none → stored.spec.providerID.isSome = true → q.Provides
  provisioned : ∀ before stored, q.machine = some before → s.api.machine = some stored →
    before.status.provisioned = false → stored.status.provisioned = true → q.Provides

section Run

variable {q : Course} {s s' : Attended}

/-- What is up stays so, in an allowed call. -/
theorem Course.Provides.next (h : q.Provides) {o : ControllerSig.Op} {r : ControllerSig.Ans o}
    (ho : q.Allows o) (hread : o ≠ .api .getLibvirtMachine) : (q.next o r).Provides := by
  match o with
  | .api o =>
    cases o with
    | getLibvirtMachine => exact absurd rfl hread
    | _ => exact h
  | .provider o =>
    obtain ⟨m, cluster, c, -, -, -, -, -, ho⟩ := ho
    cases o with
    | getMachineState cfg =>
      -- the state is asked for once
      have hnone := ho.2
      simp [Course.Provides, hnone] at h
    | createMachine cfg =>
      obtain ⟨-, -, hstate, hcreated, -⟩ := ho
      simp [Course.Provides, hstate, hcreated] at h
    | startMachine cfg =>
      obtain ⟨-, hstate, hstarted⟩ := ho
      simp [Course.Provides, hstate, hstarted] at h
    | deleteMachine cfg => exact h
    | getMachineAddress cfg => exact h

theorem Follows.start (s : Attended) : Follows {} s :=
  ⟨(fun h => nomatch h), (fun h => nomatch h), (fun _ _ h => nomatch h), fun _ _ h => nomatch h⟩

/-- **Every call of a reconcile keeps what is known**, on a course that keeps
the machine provisioned. -/
theorem Follows.step (h : Follows q s) {o : ControllerSig.Op} {r : ControllerSig.Ans o}
    (ho : q.Allows o) (hs : attendedSem s o r s') (hguard : KeepsProvisioned s ⟨o, r⟩) :
    Follows (q.next o r) s' := by
  by_cases hread : o = .api .getLibvirtMachine
  · subst hread
    obtain ⟨ha, hcourse⟩ := attendedSem_api hs
    obtain ⟨heq, hstored⟩ := apiSem_getLibvirtMachine ha
    -- what was read is what is stored
    have hsame (before stored : LibvirtMachine)
        (hbefore : (q.next (.api .getLibvirtMachine) r).machine = some before)
        (hm : s'.api.machine = some stored) : before = stored := by
      match r with
      | .error err => cases hbefore
      | .ok m =>
        cases hbefore
        rw [heq, hstored before rfl] at hm
        exact Option.some.inj hm
    refine ⟨fun _ => hcourse, (fun h => nomatch h), fun before stored hbefore hm hnone hsome => ?_,
      fun before stored hbefore hm hnot hp => ?_⟩
    · rw [← hsame before stored hbefore hm, hnone] at hsome
      cases hsome
    · rw [← hsame before stored hbefore hm, hnot] at hp
      cases hp
  have hq := h.course (ho.machine hread)
  have hmachine := q.next_machine (r := r) hread
  refine ⟨fun _ => by rw [attendedSem_course hs, hq], ?_,
    fun before stored hbefore hm hnone hsome => ?_, fun before stored hbefore hm hnot hp => ?_⟩
  · unfold KeepsProvisioned at hguard
    rwa [hq] at hguard
  all_goals rw [hmachine] at hbefore
  · rcases attendedSem_stored hs hm with hm | ⟨o, f, stored₀, rfl, hf, hm₀, rfl⟩
    · exact (h.providerID before stored hbefore hm hnone hsome).next ho hread
    refine (congrArg Course.Provides (q.next_of_edit hf)).mpr ?_
    obtain ⟨before', after, err, hbefore', hexit, hf'⟩ := ho.edit hf
    cases hbefore.symm.trans hbefore'
    rcases hf' with rfl | rfl | rfl
    · by_cases hid : after.spec.providerID = before.spec.providerID
      · refine h.providerID before stored₀ hbefore hm₀ hnone ?_
        rwa [LibvirtMachine.merge, if_pos hid] at hsome
      · exact hexit.provides hid
    · exact h.providerID before stored₀ hbefore hm₀ hnone hsome
    · exact h.providerID before stored₀ hbefore hm₀ hnone hsome
  · rcases attendedSem_stored hs hm with hm | ⟨o, f, stored₀, rfl, hf, hm₀, rfl⟩
    · exact (h.provisioned before stored hbefore hm hnot hp).next ho hread
    refine (congrArg Course.Provides (q.next_of_edit hf)).mpr ?_
    obtain ⟨before', after, err, hbefore', hexit, hf'⟩ := ho.edit hf
    cases hbefore.symm.trans hbefore'
    rcases hf' with rfl | rfl | rfl
    · exact h.provisioned before stored₀ hbefore hm₀ hnot hp
    · exact h.provisioned before stored₀ hbefore hm₀ hnot hp
    · rcases LibvirtMachine.provisioned_of_mergeStatus hp with hp | ⟨hp, -⟩
      · exact h.provisioned before stored₀ hbefore hm₀ hnot hp
      · refine (hexit.provides_of_provisioned hp).resolve_left fun hb => ?_
        cases hnot.symm.trans hb

/-- The machine is provisioned, if it is there. -/
def Attended.Provisioned (s : Attended) : Prop := ∀ m, s.api.machine = some m → m.Provisioned

/-- **Every call of a reconcile leaves the machine provisioned.** A patch
could take it back only if the object that was read had it and the exit does
not. -/
theorem Follows.staysProvisioned (h : Follows q s) (hp : s.Provisioned) {o : ControllerSig.Op}
    {r : ControllerSig.Ans o} (ho : q.Allows o) (hs : attendedSem s o r s') : s'.Provisioned := by
  match o with
  | .provider o =>
    rw [Attended.Provisioned, (attendedSem_provider hs).1]
    exact hp
  | .api o =>
    obtain ⟨ha, -⟩ := attendedSem_api hs
    rcases apiSem_cases ha with heq | ⟨f, stored, hf, hm, -, heq⟩
    · rw [Attended.Provisioned, heq]
      exact hp
    rw [Attended.Provisioned, heq]
    intro m' hm'
    obtain rfl := LibvirtMachine.eq_of_stores hm'
    obtain ⟨before, after, err, hbefore, hexit, rfl | rfl | rfl⟩ := ho.edit hf
    · refine ⟨(hp stored hm).1, ?_⟩
      show (if _ then _ else _ : Option String).isSome = true
      split
      · exact (hp stored hm).2
      · rename_i hid
        obtain heq | ⟨-, heq, -⟩ := hexit.change.providerID
        · exact absurd heq hid
        · rw [heq]
          rfl
    · exact hp stored hm
    · -- a machine that was provisioned when it was read is kept so, and one
      -- that has become so since is up
      have hafter : after.status.provisioned = true := by
        cases hbp : before.status.provisioned with
        | false =>
          exact hexit.provisioned_of_provides
            (h.provisioned before stored hbefore hm hbp (hp stored hm).1)
        | true =>
          cases hid : before.spec.providerID with
          | none =>
            exact hexit.provisioned_of_provides
              (h.providerID before stored hbefore hm hid (hp stored hm).2)
          | some id => exact (hexit.provisioned_iff hbefore ⟨hbp, hid ▸ rfl⟩).mpr h.keeps
      exact ⟨LibvirtMachine.mergeStatus_provisioned_of (hp stored hm).1 hafter, (hp stored hm).2⟩

theorem Follows.edited (h : Follows q s) (hs : Edited s s') : Follows q s' := by
  cases hs with
  | machine hm hstatus hid =>
    refine ⟨h.course, h.keeps, fun before stored hbefore hstored => ?_,
      fun before stored hbefore hstored => ?_⟩
    · obtain rfl := LibvirtMachine.eq_of_stores hstored
      rw [hid]
      exact h.providerID before _ hbefore hm
    · obtain rfl := LibvirtMachine.eq_of_stores hstored
      rw [hstatus]
      exact h.provisioned before _ hbefore hm
  | cluster c => exact ⟨h.course, h.keeps, h.providerID, h.provisioned⟩

theorem Attended.Provisioned.edited (hp : s.Provisioned) (hs : Edited s s') : s'.Provisioned := by
  cases hs with
  | machine hm hstatus hid =>
    intro m' hm'
    obtain rfl := LibvirtMachine.eq_of_stores hm'
    rw [LibvirtMachine.Provisioned, hstatus, hid]
    exact hp _ hm
  | cluster c => exact hp

end Run

/-- What is known holds in every state of a run. -/
theorem Attendance.Reach.monitored {R : Course → Attended → Prop}
    (hstep : ∀ q s o r s', R q s → q.Allows o → attendedSem s o r s' →
      KeepsProvisioned s ⟨o, r⟩ → R (q.next o r) s')
    (hstart : ∀ q s, R q s → R {} s) (hedit : ∀ q s s', R q s → Edited s s' → R q s')
    {c c' : Attendance} (hc : Pool.Monitored (fun _ => courseMonitor) (fun q s => R (q ()) s) c)
    (h : Attendance.Reach KeepsProvisioned c c') :
    Pool.Monitored (fun _ => courseMonitor) (fun q s => R (q ()) s) c' := by
  refine Pool.Monitored.reach (fun _ => {}) ?_ ?_ ?_ ?_ hc h
  · rintro q s ⟨⟩ o r s' hq ho hs hguard
    rw [Function.update_self]
    exact hstep (q ()) s o r s' hq ho hs hguard
  · rintro q s ⟨⟩ hq
    rw [Function.update_self]
    exact hstart _ s hq
  · rintro _ _ rfl
    exact reconcile_course
  · exact fun q s s' hq hs => hedit (q ()) s s' hq hs

/-- **Provisioned is kept.** In every run whose reconciles are on courses that
keep it, a machine that is provisioned stays so in every later state; and a
single reconcile of it leaves it provisioned exactly if its course is one that
keeps it. -/
theorem provisioned_stays_iff {api : ApiState} {c : Attendance} {m : LibvirtMachine}
    (h : Attendance.Reach KeepsProvisioned (.initial api) c)
    (hm : c.state.api.machine = some m) (hp : m.Provisioned) :
    (∀ c', Attendance.Reach KeepsProvisioned c c' →
      ∀ m', c'.state.api.machine = some m' → m'.Provisioned)
    ∧ ∀ a tr s' after outcome,
      Prog.Exec attendedSem (reconcileMachine m) ⟨a, { machine := some m }⟩ tr s' (after, outcome) →
      (after.status.provisioned = true ↔ s'.course.Keeps) := by
  constructor
  · intro c' h'
    have hinitial : Pool.Monitored (fun _ => courseMonitor) (fun q s => Follows (q ()) s)
        (Attendance.initial api) := ⟨fun _ => {}, .start _, fun _ => trivial⟩
    obtain ⟨q, hq, hobeys⟩ := h.monitored (R := Follows)
      (fun q s o r s' hq ho hs hguard => hq.step ho hs hguard) (fun _ s _ => .start s)
      (fun q s s' hq hs => hq.edited hs) hinitial
    have hstored : c.state.Provisioned := by
      intro m' hm'
      cases hm.symm.trans hm'
      exact hp
    obtain ⟨q', ⟨-, hp'⟩, -⟩ := h'.monitored (R := fun q s => Follows q s ∧ s.Provisioned)
      (fun q s o r s' hq ho hs hguard => ⟨hq.1.step ho hs hguard, hq.1.staysProvisioned hq.2 ho hs⟩)
      (fun q s hq => ⟨.start s, hq.2⟩)
      (fun q s s' hq hs => ⟨hq.1.edited hs, hq.2.edited hs⟩) ⟨q, ⟨hq, hstored⟩, hobeys⟩
    exact hp'
  · intro a tr s' after outcome hexec
    obtain ⟨hmachine, hexit⟩ := obeys_attended reconcileMachine_course hexec
    exact hexit.provisioned_iff hmachine hp

/-- The machine of `sampleMachine`, some time after it was created. -/
def provisionedMachine : LibvirtMachine :=
  { sampleMachine with
    finalizers := [libvirtMachineFinalizer]
    spec := { sampleMachine.spec with providerID := some "libvirt://5d3b6c0e" }
    status := { sampleMachine.status with ready := true, provisioned := true } }

/-- Whether the course is one that keeps the machine provisioned. -/
def Course.keeps (q : Course) : Bool :=
  !q.loaded || q.machine.all fun m => q.cluster.all fun cluster =>
    !(m.status.provisioned && m.spec.providerID.isSome && !m.deletionTimestamp)
      || (!isPaused cluster m && decide (libvirtMachineFinalizer ∈ m.finalizers)
        && cluster.infrastructureProvisioned == some true && q.state != some .unknown)

theorem Course.keeps_of {q : Course} (h : q.keeps = true) : q.Keeps := by
  intro hloaded m cluster hm hp hdel hcluster
  have hid := Option.isSome_iff_ne_none.mp hp.2
  simpa [Course.keeps, hloaded, hm, hcluster, hp.1, hid, hdel, and_assoc] using h

/-- The calls that the guard lets through. -/
def keepingStep (s : Attended) (o : ControllerSig.Op) (c : SystemChoice) :
    Option (ControllerSig.Ans o × Attended) :=
  (attendedStep s o c).filter fun r => (s.course.next o r.1).keeps

/-- A reconcile that finds the domain running, and reports its address, leaves
the machine provisioned. -/
theorem provisioned_stays_running :
    ∃ c : Attendance, Attendance.Reach KeepsProvisioned
        (.initial ⟨some provisionedMachine, some sampleCluster⟩) c
      ∧ ∃ m, c.state.api.machine = some m ∧ m.status.addresses = ["192.168.122.9"]
        ∧ m.Provisioned
        ∧ ∃ tr s' after outcome,
          Prog.Exec attendedSem (reconcileMachine m)
            ⟨⟨some m, some sampleCluster⟩, { machine := some m }⟩ tr s' (after, outcome)
          ∧ after.status.provisioned = true ∧ s'.course.Keeps := by
  let ok : SystemChoice := { api := sampleAnswers, state := .running, address := "192.168.122.9" }
  have hrun : (Pool.play keepingStep
      (Attendance.initial ⟨some provisionedMachine, some sampleCluster⟩)
      (scheduled (List.replicate 10 ok))).bind (fun c => c.state.api.machine.bind fun m =>
        (Prog.runWith attendedStep ok (reconcileMachine m)
          ⟨⟨some m, some sampleCluster⟩, { machine := some m }⟩ []).map fun r =>
            (m.status.addresses, r.2.2.1.status.provisioned))
      = some (["192.168.122.9"], true) := by decide +kernel
  obtain ⟨c, hc, hrun⟩ := Option.bind_eq_some_iff.mp hrun
  obtain ⟨m, hm, hrun⟩ := Option.bind_eq_some_iff.mp hrun
  obtain ⟨⟨tr, s', after, outcome⟩, hr, hout⟩ := Option.map_eq_some_iff.mp hrun
  obtain ⟨haddresses, hprov⟩ := Prod.mk.inj hout
  have hreach : Attendance.Reach KeepsProvisioned
      (.initial ⟨some provisionedMachine, some sampleCluster⟩) c := by
    refine Pool.reach_of_play_guarded (fun s o x r s' hs => ?_) (by simp [scheduled]) hc
    obtain ⟨hs, hkeeps⟩ := Option.filter_eq_some_iff.mp hs
    exact ⟨⟨x, hs⟩, Course.keeps_of hkeeps⟩
  have hstays := provisioned_stays_iff
    (c := .initial ⟨some provisionedMachine, some sampleCluster⟩) .refl rfl ⟨rfl, rfl⟩
  have hp := hstays.1 c hreach m hm
  have hexec := Prog.exec_of_runWith hr
  exact ⟨c, hreach, m, hm, haddresses, hp, tr, s', after, outcome, hexec, hprov,
    ((provisioned_stays_iff hreach hm hp).2 _ _ _ _ _ hexec).mp hprov⟩

/-- **Pausing the cluster takes it back**, while the machine is up. -/
theorem provisioned_lost_paused :
    ∃ c : Attendance, Attendance.Reach (fun _ _ => True)
        (.initial ⟨some provisionedMachine, some sampleCluster⟩) c
      ∧ provisionedMachine.Provisioned
      ∧ ∃ m, c.state.api.machine = some m ∧ m.status.provisioned = false := by
  have hrun : (Pool.play attendedStep
      (Attendance.initial ⟨some provisionedMachine, some sampleCluster⟩)
      (scheduled (List.replicate 7 { api := { sampleAnswers with
        ownerCluster := some ⟨"prod", "default", "prod", some true, some true⟩ } }))).map
      (fun c => c.state.api.machine.map fun m => m.status.provisioned) = some (some false) := by
    decide +kernel
  obtain ⟨c, hc, hm⟩ := Option.map_eq_some_iff.mp hrun
  obtain ⟨m, hm, hlost⟩ := Option.map_eq_some_iff.mp hm
  exact ⟨c, Pool.reach_of_play (by simp [scheduled]) hc, ⟨rfl, rfl⟩, m, hm, hlost⟩

/-! ## The conditions -/

/-- **The status tells the truth** about a domain found in a state: it says
that the domain is running exactly if it is, and a machine that is ready and
provisioned is not said to be in the course of provisioning. -/
def Report.Truthful (r : Report) (st : DomainState) : Prop :=
  (r.running = some .yes ↔ st = .running)
  ∧ (r.ready = true → r.provisioned = true → r.provisioning ≠ some .no)

/-- **The status goes as a whole** when the machine is taken to be neither ready
nor provisioned: it has no address, so that nothing else is left of it, and the
conditions are removed with it. -/
def LibvirtMachine.Vanishing (m : LibvirtMachine) : Prop :=
  m.status.addresses = [] ∧ (m.status.ready = true ∨ m.status.provisioned = true)

/-- The course of a reconcile that found the domain in a state and leaves a
status that tells the truth. What a state does not write must not have been
written before, unless it is removed; and a domain that is created is still
said to be in the course of provisioning. -/
def Course.Tells (q : Course) : DomainState → Prop
  | .running => ∀ m, q.machine = some m → m.report.provisioning ≠ some .no
  | .stopped => ∀ m, q.machine = some m → m.report.provisioning ≠ some .no
  | .unknown => ∀ m, q.machine = some m → m.report.running = some .yes → m.Vanishing
  | .notFound => ∀ m, q.machine = some m → m.spec.providerID = none →
      (m.report.running = some .yes → m.Vanishing) ∧ q.created = false

/-- The report that is stored once a reconcile has patched the object. -/
def LibvirtMachine.storedReport (before after : LibvirtMachine) : Report :=
  if before.wipes after then ⟨false, false, none, none⟩ else after.report

section StoredReport

variable {m after : LibvirtMachine} {st : DomainState}

/-- Where ready and provisioned are set, all of the report is stored. -/
theorem storedReport_of_provisioned (h : after.status.provisioned = true) :
    m.storedReport after = after.report :=
  if_neg (by simp [LibvirtMachine.wipes_eq_false_of_provisioned h])

/-- Where they are taken back, the report is stored or the status goes. -/
theorem storedReport_truthful_iff (m after : LibvirtMachine) (st : DomainState)
    (hready : after.status.ready = false) (hprovisioned : after.status.provisioned = false)
    (haddresses : after.status.addresses = m.status.addresses) (hst : st ≠ .running) :
    (m.storedReport after).Truthful st ↔ (after.report.running = some .yes → m.Vanishing) := by
  have hwipes : m.wipes after = true ↔ m.Vanishing := by
    simp [LibvirtMachine.wipes, LibvirtMachineStatus.blank, LibvirtMachine.Vanishing, hready,
      hprovisioned, haddresses]
    tauto
  have hr : after.report.ready = false := hready
  unfold LibvirtMachine.storedReport
  split
  · rename_i hw
    exact iff_of_true (by simp [Report.Truthful, hst]) fun _ => hwipes.mp hw
  · rename_i hw
    simp [Report.Truthful, hst, hr, ← hwipes, hw]

end StoredReport

/-- **A reconcile that returns no error leaves a status that tells the truth,
exactly on these courses.** It is about the status as it will be stored, since
the patch may remove more than the reconcile has changed. -/
theorem Course.Exit.truthful_iff {q : Course} {m after : LibvirtMachine} {st : DomainState}
    (h : q.Exit m after none) (hm : q.machine = some m) (hst : q.state = some st) :
    (m.storedReport after).Truthful st ↔ q.Tells st := by
  cases h with
  | unread _ hidle | paused _ _ _ _ hidle | adopted _ _ _ _ _ hidle | waiting _ _ _ _ _ hidle =>
    cases hidle.1.symm.trans hst
  | deleted _ _ _ _ _ _ hstate => cases hstate.symm.trans hst
  | lost _ hstate hid =>
    cases hstate.symm.trans hst
    refine iff_of_true ?_ fun m' hm' hnone => ?_
    · unfold LibvirtMachine.storedReport
      split <;> simp [Report.Truthful]
    · cases hm.symm.trans hm'
      rw [hnone] at hid
      cases hid
  | dataless _ hstate hid hcreated =>
    cases hstate.symm.trans hst
    refine (storedReport_truthful_iff m (m.withInfrastructure.withProvisioning.withReady false)
      .notFound rfl rfl rfl (by decide)).trans ?_
    simp [Course.Tells, hm, hid, hcreated]
  | created _ hstate hid hcreated =>
    cases hstate.symm.trans hst
    rw [storedReport_of_provisioned rfl]
    simp [Report.Truthful, Course.Tells, hm, hid, hcreated]
  | started _ hstate =>
    cases hstate.symm.trans hst
    rw [storedReport_of_provisioned rfl]
    simp [Report.Truthful, Course.Tells, hm]
  | running _ hstate _ hafter =>
    cases hstate.symm.trans hst
    rcases hafter with rfl | ⟨l, rfl⟩
    · rw [storedReport_of_provisioned rfl]
      simp [Report.Truthful, Course.Tells, hm]
    · rw [storedReport_of_provisioned rfl]
      simp [Report.Truthful, Course.Tells, hm]
  | unknown _ hstate =>
    cases hstate.symm.trans hst
    refine (storedReport_truthful_iff m
      ((m.withInfrastructure.withReady false).withProvisioned false) .unknown rfl rfl rfl
      (by decide)).trans ?_
    simp [Course.Tells, hm]

/-! ### The object that is stored -/

/-- Conditions set one after the other. -/
inductive Sets (l : List Condition) : List Condition → Prop where
  | refl : Sets l l
  | set {l' : List Condition} (h : Sets l l') (c : Condition) : Sets l (setCondition l' c)

theorem Sets.distinct {l l' : List Condition} (h : Sets l l') (hl : DistinctTypes l) :
    DistinctTypes l' := by
  induction h with
  | refl => exact hl
  | set _ c ih => exact ih.setCondition c

/-- No condition is taken away. -/
theorem Sets.findCondition_none {l l' : List Condition} (h : Sets l l') {t : ConditionType}
    (hnone : findCondition l' t = none) : findCondition l t = none := by
  induction h with
  | refl => exact hnone
  | set _ c ih =>
    rw [findCondition_setCondition] at hnone
    split at hnone
    · cases hnone
    · exact ih hnone

@[simp] theorem setProviderID_status (m : LibvirtMachine) :
    (setProviderID m).status = m.status := by
  unfold setProviderID
  split <;> rfl

@[simp] theorem setProviderID_deletionTimestamp (m : LibvirtMachine) :
    (setProviderID m).deletionTimestamp = m.deletionTimestamp := by
  unfold setProviderID
  split <;> rfl

/-- A reconcile sets conditions, and does nothing else to them. -/
theorem Course.Exit.sets {q : Course} {m after : LibvirtMachine} {err : Option GoError}
    (h : q.Exit m after err) : Sets m.status.conditions after.status.conditions := by
  cases h with
  | unread | paused | adopted | undeleted | deleted => exact .refl
  | waiting | stateless | unknown => exact .set .refl _
  | lost | dataless | unreadable => exact .set (.set .refl _) _
  | uncreated | unstarted => exact .set (.set (.set .refl _) _) _
  | created =>
    show Sets _ (setCondition (setProviderID _).status.conditions _)
    rw [setProviderID_status]
    exact .set (.set (.set .refl _) _) _
  | started =>
    show Sets _ (setProviderID _).status.conditions
    rw [setProviderID_status]
    exact .set (.set .refl _) _
  | running _ _ _ hafter =>
    have hset (msg : String) : Sets m.status.conditions
        (setProviderID (m.withInfrastructure.withCondition
          .domainRunning .yes .domainRunning msg)).status.conditions := by
      rw [setProviderID_status]
      exact .set (.set .refl _) _
    rcases hafter with rfl | ⟨l, rfl⟩
    · exact hset _
    · exact hset _

/-- A request that, if it succeeds, stores the machine as `f` has it. -/
def Edits (request : ControllerM (Except ApiError Unit)) (f : LibvirtMachine → LibvirtMachine) :
    Prop :=
  ∀ s tr s' m, Prog.Exec attendedSem request s tr s' (.ok ()) → s.api.machine = some m →
    s'.api.machine = (f m).stores

section Patch

variable {before after m : LibvirtMachine} {s s' : Attended} {tr : List (Event ControllerSig)}

theorem edits_patchStatusConditions :
    Edits (api (.patchStatusConditions before after)) (before.mergeConditions after) := by
  intro s tr s' m h hm
  obtain ⟨⟨c, hc⟩, -⟩ := attendedSem_api (Prog.exec_perform.mp h).1
  exact ApiChoice.change_ok hc hm

theorem edits_patch : Edits (api (.patch before after)) (before.merge after) := by
  intro s tr s' m h hm
  obtain ⟨⟨c, hc⟩, -⟩ := attendedSem_api (Prog.exec_perform.mp h).1
  exact ApiChoice.change_ok hc hm

theorem edits_patchStatus : Edits (api (.patchStatus before after)) (before.mergeStatus after) := by
  intro s tr s' m h hm
  obtain ⟨⟨c, hc⟩, -⟩ := attendedSem_api (Prog.exec_perform.mp h).1
  exact ApiChoice.change_ok hc hm

/-- What is stored after a request, or without one. -/
theorem patchIf_stored {differs : Bool} {request : ControllerM (Except ApiError Unit)}
    {f : LibvirtMachine → LibvirtMachine} (hf : Edits request f)
    (hkeeps : ∀ m, (f m).deletionTimestamp = m.deletionTimestamp)
    (h : Prog.Exec attendedSem (patchIf differs request) s tr s' (.ok ()))
    (hm : s.api.machine = some m) (hdel : m.deletionTimestamp = false) :
    ∃ m', s'.api.machine = some m' ∧ m'.deletionTimestamp = false
      ∧ m' = if differs then f m else m := by
  cases differs with
  | false =>
    obtain ⟨-, rfl, -⟩ := h
    exact ⟨m, hm, hdel, rfl⟩
  | true =>
    have hdel' : (f m).deletionTimestamp = false := (hkeeps m).trans hdel
    refine ⟨f m, ?_, hdel', rfl⟩
    rw [hf s tr s' m h hm, LibvirtMachine.stores, hdel']
    rfl

theorem newAggregate_eq_none {errs : List GoError} (h : newAggregate errs = none) : errs = [] := by
  match errs with
  | [] => rfl
  | [err] => cases h
  | err :: err' :: errs =>
    unfold newAggregate at h
    split at h
    · rename_i hnil
      cases hnil
    · cases h
    · split at h <;> cases h

/-- The conditions that differ, set where they differ. -/
theorem mergeConditions_status
    (hm : m = if after.status.conditions ≠ before.status.conditions then
      before.mergeConditions after before else before) :
    m.status.ready = before.status.ready ∧ m.status.provisioned = before.status.provisioned
    ∧ m.status.conditions
      = (after.status.conditions.filter (· ∉ before.status.conditions)).foldl setCondition
        before.status.conditions := by
  subst hm
  split
  · exact ⟨rfl, rfl, rfl⟩
  · rename_i h
    have hnil : before.status.conditions.filter (· ∉ before.status.conditions) = [] := by
      rw [List.filter_eq_nil_iff]
      intro c hc
      simp [hc]
    rw [not_not.mp h, hnil]
    exact ⟨rfl, rfl, rfl⟩

/-- Ready and provisioned, on an object that has them as they were read, and
the conditions, unless they go. -/
theorem mergeStatus_status {m' : LibvirtMachine} (hready : m.status.ready = before.status.ready)
    (hprovisioned : m.status.provisioned = before.status.provisioned)
    (hm : m' = if after.status ≠ before.status then before.mergeStatus after m else m) :
    m'.status.ready = after.status.ready ∧ m'.status.provisioned = after.status.provisioned
    ∧ m'.status.conditions = if before.wipes after then [] else m.status.conditions := by
  subst hm
  split
  · exact ⟨LibvirtMachine.mergeStatus_ready hready,
      LibvirtMachine.mergeStatus_provisioned hprovisioned, LibvirtMachine.mergeStatus_conditions⟩
  · rename_i h
    have hsame := not_not.mp h
    refine ⟨hsame ▸ hready, hsame ▸ hprovisioned, ?_⟩
    simp [LibvirtMachine.wipes, hsame]

/-- **A patch without an error leaves the status as it is to be**, with the
conditions that differ set on those that were there, unless they go. All three
requests have to be put together for this: each writes a part. -/
theorem helperPatch_stored
    (h : Prog.Exec attendedSem (helperPatch before after) s tr s' none)
    (hm : s.api.machine = some before) (hdel : before.deletionTimestamp = false)
    (hdel' : after.deletionTimestamp = false) :
    ∃ stored, s'.api.machine = some stored ∧ stored.status.ready = after.status.ready
      ∧ stored.status.provisioned = after.status.provisioned
      ∧ stored.status.conditions = if before.wipes after then [] else
          (after.status.conditions.filter (· ∉ before.status.conditions)).foldl setCondition
            before.status.conditions := by
  obtain ⟨conditions, s₁, tr₁, tr₂, rfl, h₁, h⟩ := Prog.exec_bind.mp h
  obtain ⟨object, s₂, tr₂, tr₃, rfl, h₂, h⟩ := Prog.exec_bind.mp h
  obtain ⟨status, s₃, tr₃, tr₄, rfl, h₃, -, rfl, herr⟩ := Prog.exec_bind.mp h
  have herr := newAggregate_eq_none herr.symm
  simp only [hdel', Bool.false_and, Bool.false_eq_true, if_false] at herr
  -- no request has failed
  match conditions, object, status, herr with
  | .ok (), .ok (), .ok (), _ =>
    obtain ⟨m₁, hm₁, hd₁, heq₁⟩ :=
      patchIf_stored edits_patchStatusConditions (fun _ => rfl) h₁ hm hdel
    obtain ⟨m₂, hm₂, hd₂, heq₂⟩ := patchIf_stored edits_patch (fun _ => rfl) h₂ hm₁ hd₁
    obtain ⟨m₃, hm₃, -, heq₃⟩ := patchIf_stored edits_patchStatus (fun _ => rfl) h₃ hm₂ hd₂
    have hst₂ : m₂.status = m₁.status := by
      rw [heq₂]
      split <;> rfl
    simp only [decide_eq_true_eq] at heq₁ heq₃
    obtain ⟨hready, hprovisioned, hconditions⟩ := mergeConditions_status heq₁
    rw [← hst₂] at hready hprovisioned hconditions
    obtain ⟨hready', hprovisioned', hconditions'⟩ :=
      mergeStatus_status hready hprovisioned heq₃
    exact ⟨m₃, hm₃, hready', hprovisioned', hconditions ▸ hconditions'⟩

end Patch

/-! ### From reconcile to reconcile -/

/-- The calls that are not patches. -/
def ControllerOp.Reads : ControllerOp → Prop
  | .api o => o.edit = none
  | .provider _ => True

/-- The calls that ask the provider to change something. -/
def ControllerOp.asks : ControllerOp → Bool
  | .provider (.createMachine _) => true
  | .provider (.startMachine _) => true
  | .provider (.deleteMachine _) => true
  | _ => false

/-- The calls between the reading of the object and the patch. -/
def ControllerOp.Inner : ControllerOp → Prop
  | .api .getLibvirtMachine => False
  | .api o => o.edit = none
  | .provider _ => True

theorem ControllerOp.Inner.reads {o : ControllerOp} (h : o.Inner) : o.Reads := by
  match o with
  | .provider _ => trivial
  | .api o =>
    cases o with
    | getLibvirtMachine => exact h.elim
    | _ => exact h

theorem reconcileMissing_inner (scope : MachineScope) (m : LibvirtMachine) :
    (reconcileMissing scope m).Calls ControllerOp.Inner := by
  unfold reconcileMissing
  split
  · trivial
  cases scope.machine.dataSecretName with
  | none => trivial
  | some name =>
    have hdata : (getCloudInitData scope name).Calls ControllerOp.Inner := by
      refine ⟨rfl, fun r => ?_⟩
      match r with
      | .error _ | .ok none | .ok (some _) => trivial
    refine hdata.bind fun r => ?_
    match r with
    | .error _ => trivial
    | .ok _ =>
      refine ⟨trivial, fun r => ?_⟩
      match r with
      | .error _ | .ok () => trivial

theorem reconcileNormal_inner (scope : MachineScope) :
    (reconcileNormal scope).Calls ControllerOp.Inner := by
  unfold reconcileNormal
  dsimp only
  split
  · trivial
  split
  · trivial
  split
  · trivial
  refine ⟨trivial, fun r => ?_⟩
  match r with
  | .error _ | .ok .unknown => trivial
  | .ok .notFound => exact reconcileMissing_inner _ _
  | .ok .stopped =>
    refine ⟨trivial, fun r => ?_⟩
    match r with
    | .error _ | .ok () => trivial
  | .ok .running =>
    refine Prog.Calls.bind (p := provider _) ⟨trivial, fun _ => trivial⟩ fun r => ?_
    match r with
    | .error _ => trivial
    | .ok address =>
      dsimp only
      split <;> trivial

/-- Until the patch, a reconcile reads, and calls the provider. -/
theorem reconcileMachine_inner (m : LibvirtMachine) :
    (reconcileMachine m).Calls ControllerOp.Inner := by
  refine ⟨rfl, fun r => ?_⟩
  match r with
  | .error _ | .ok none => trivial
  | .ok (some ownerMachine) =>
  refine ⟨rfl, fun r => ?_⟩
  match r with
  | .error _ | .ok none => trivial
  | .ok (some ownerCluster) =>
  refine ⟨rfl, fun r => ?_⟩
  match r with
  | .error _ => trivial
  | .ok libvirtCluster =>
  refine ⟨rfl, fun r => ?_⟩
  match r with
  | .error _ => trivial
  | .ok creds =>
    dsimp only
    split
    · refine Prog.Calls.bind (p := provider _) ⟨trivial, fun _ => trivial⟩ fun r => ?_
      match r with
      | .error _ => trivial
      | .ok () =>
        dsimp only
        split <;> trivial
    · exact reconcileNormal_inner _

/-- What a call that is no patch leaves. -/
theorem attendedSem_reads {s s' : Attended} {o : ControllerSig.Op} {r : ControllerSig.Ans o}
    (ho : ControllerOp.Reads o) (h : attendedSem s o r s') : s'.api = s.api := by
  match o with
  | .provider o => exact (attendedSem_provider h).1
  | .api o =>
    rcases apiSem_cases (attendedSem_api h).1 with heq | ⟨f, stored, hf, -⟩
    · exact heq
    · cases Eq.trans (Eq.symm ho) hf

/-- **A reconcile, in two parts**: it does not get to the object, or it takes
one of the exits with the object as it is stored, and then comes the patch. -/
theorem reconcile_attended {s s' : Attended} {tr : List (Event ControllerSig)} {outcome : Outcome}
    (h : Prog.Exec attendedSem reconcile s tr s' outcome) :
    (s'.api = s.api ∧ s'.course.loaded = false ∧ s'.course.Idle
      ∧ ∀ ev ∈ tr, ControllerOp.Reads ev.1 ∧ ControllerOp.asks ev.1 = false)
    ∨ ∃ m after out err tr₀ tr₁ tr₂ s₁, tr = tr₀ ++ (tr₁ ++ tr₂) ∧ s.api.machine = some m
      ∧ (∀ ev ∈ tr₀, ControllerOp.Reads ev.1 ∧ ControllerOp.asks ev.1 = false)
      ∧ Prog.Exec attendedSem (reconcileMachine m) ⟨s.api, { machine := some m }⟩ tr₁ s₁
        (after, out)
      ∧ Prog.Exec attendedSem (helperPatch m after) s₁ tr₂ s' err
      ∧ outcome.err = (out.err <|> err) := by
  have hread (r : Except ApiError LibvirtMachine) :
      ∀ ev ∈ [(⟨.api .getLibvirtMachine, r⟩ : Event ControllerSig)],
        ControllerOp.Reads ev.1 ∧ ControllerOp.asks ev.1 = false :=
    List.forall_mem_singleton.mpr ⟨rfl, rfl⟩
  have hhelper (r : Except ApiError LibvirtMachine) (r' : Except GoError Unit) :
      ∀ ev ∈ [(⟨.api .getLibvirtMachine, r⟩ : Event ControllerSig), ⟨.api .newHelper, r'⟩],
        ControllerOp.Reads ev.1 ∧ ControllerOp.asks ev.1 = false :=
    List.forall_mem_cons.mpr ⟨⟨rfl, rfl⟩, List.forall_mem_singleton.mpr ⟨rfl, rfl⟩⟩
  obtain ⟨r, ⟨a₁, q₁⟩, tr₁, hget, rfl, h⟩ := h
  obtain ⟨hget, hq₁⟩ := attendedSem_api hget
  obtain ⟨heq, hstored⟩ := apiSem_getLibvirtMachine hget
  dsimp only at heq hq₁ hstored
  subst heq hq₁
  match r with
  | .error .notFound =>
    obtain ⟨rfl, rfl, -⟩ := h
    exact Or.inl ⟨rfl, rfl, ⟨rfl, rfl⟩, hread _⟩
  | .error (.other msg) =>
    obtain ⟨rfl, rfl, -⟩ := h
    exact Or.inl ⟨rfl, rfl, ⟨rfl, rfl⟩, hread _⟩
  | .ok m =>
  obtain ⟨r, ⟨a₂, q₂⟩, tr₂, hnew, rfl, h⟩ := h
  have ha₂ := attendedSem_reads (o := .api .newHelper) rfl hnew
  obtain ⟨-, hq₂⟩ := attendedSem_api hnew
  dsimp only at ha₂ hq₂
  subst ha₂ hq₂
  match r with
  | .error err =>
    obtain ⟨rfl, rfl, -⟩ := h
    exact Or.inl ⟨rfl, rfl, ⟨rfl, rfl⟩, hhelper _ _⟩
  | .ok () =>
    change Prog.Exec _ (reconcileMachine m >>= _) _ _ _ _ at h
    obtain ⟨⟨after, out⟩, s₁, tr₃, tr₄, rfl, h₁, h⟩ := Prog.exec_bind.mp h
    change Prog.Exec _ (helperPatch m after >>= _) _ _ _ _ at h
    obtain ⟨err, s₂, tr₄, tr₅, rfl, h₂, rfl, rfl, rfl⟩ := Prog.exec_bind.mp h
    rw [List.append_nil]
    exact Or.inr ⟨m, after, out, err, _, tr₃, tr₄, s₁, rfl, hstored m rfl,
      hhelper (.ok m) (.ok ()), h₁, h₂, rfl⟩

/-- **What a reconcile left**: its course, its result and the machine as it is
stored. The stored object is what others see, and what the statement is about. -/
structure Visit where
  course : Course
  outcome : Outcome
  stored : Option LibvirtMachine

/-- The reconcile obtained a state of the domain and returned no error. -/
def Visit.Obtained (v : Visit) (st : DomainState) : Prop :=
  v.course.state = some st ∧ v.outcome.err = none

/-- **The steps of the machine controller**: a reconcile with any answers, or
an edit of the objects that leaves the status alone. -/
inductive StatusStep (a : ApiState) : Option Visit → ApiState → Prop where
  | reconcile {tr : List (Event ControllerSig)} {s : Attended} {outcome : Outcome}
      (h : Prog.Exec attendedSem reconcile ⟨a, {}⟩ tr s outcome) :
      StatusStep a (some ⟨s.course, outcome, s.api.machine⟩) s.api
  | machine {m m' : LibvirtMachine} (hm : a.machine = some m) (hstatus : m'.status = m.status) :
      StatusStep a none { a with machine := m'.stores }
  | cluster (c : Option LibvirtCluster) : StatusStep a none { a with libvirtCluster := c }

/-- The conditions of the stored machine are of distinct types. -/
def ApiState.Distinct (a : ApiState) : Prop :=
  ∀ m, a.machine = some m → DistinctTypes m.status.conditions

theorem ApiState.Distinct.request {a a' : ApiState} (h : a.Distinct) {o : ApiOp} {r : o.Result}
    (hs : apiSem a o r a') : a'.Distinct := by
  rcases apiSem_cases hs with rfl | ⟨f, stored, hf, hstored, -, rfl⟩
  · exact h
  intro m hm
  obtain rfl := LibvirtMachine.eq_of_stores hm
  have hd := h stored hstored
  cases o <;> cases hf
  · exact hd.foldl _
  · exact hd
  · rw [LibvirtMachine.mergeStatus_conditions]
    split
    · exact List.nodup_nil
    · exact hd

theorem StatusStep.distinct {a a' : ApiState} {v : Option Visit} (h : StatusStep a v a')
    (hd : a.Distinct) : a'.Distinct := by
  cases h with
  | reconcile h =>
    refine Prog.Exec.invariant (I := fun s : Attended => s.api.Distinct)
      (fun s o r s' hs hsem => ?_) hd h
    cases o with
    | api o => exact hs.request (attendedSem_api hsem).1
    | provider o =>
      rw [(attendedSem_provider hsem).1]
      exact hs
  | machine hm hstatus =>
    intro m hm'
    obtain rfl := LibvirtMachine.eq_of_stores hm'
    rw [hstatus]
    exact hd _ hm
  | cluster c => exact hd

section DeletionTimestamp

variable (m : LibvirtMachine) (b : Bool)

@[simp] theorem withReady_deletionTimestamp :
    (m.withReady b).deletionTimestamp = m.deletionTimestamp := rfl
@[simp] theorem withProvisioned_deletionTimestamp :
    (m.withProvisioned b).deletionTimestamp = m.deletionTimestamp := rfl
@[simp] theorem withAddresses_deletionTimestamp (l : List String) :
    (m.withAddresses l).deletionTimestamp = m.deletionTimestamp := rfl
@[simp] theorem withCondition_deletionTimestamp (t : ConditionType) (cs : ConditionStatus)
    (cr : ConditionReason) (msg : String) :
    (m.withCondition t cs cr msg).deletionTimestamp = m.deletionTimestamp := rfl
@[simp] theorem withInfrastructure_deletionTimestamp :
    m.withInfrastructure.deletionTimestamp = m.deletionTimestamp := rfl
@[simp] theorem withProvisioning_deletionTimestamp :
    m.withProvisioning.deletionTimestamp = m.deletionTimestamp := rfl

end DeletionTimestamp

/-- The deletion of an object is not a reconcile's to change. -/
theorem Course.Exit.deletionTimestamp {q : Course} {m after : LibvirtMachine}
    {err : Option GoError} (h : q.Exit m after err) :
    after.deletionTimestamp = m.deletionTimestamp := by
  cases h with
  | unread | adopted | undeleted | deleted => rfl
  | running _ _ _ hafter => rcases hafter with rfl | ⟨l, rfl⟩ <;> simp
  | _ => simp

/-- The state is asked for where the machine is not being deleted. -/
theorem Course.Exit.not_deleted {q : Course} {m after : LibvirtMachine} {err : Option GoError}
    {st : DomainState} (h : q.Exit m after err) (hst : q.state = some st) :
    m.deletionTimestamp = false := by
  cases h with
  | unread _ hidle | paused _ _ _ _ hidle | adopted _ _ _ _ _ hidle | waiting _ _ _ _ _ hidle =>
    cases hidle.1.symm.trans hst
  | undeleted _ _ _ _ hstate => cases hstate.symm.trans hst
  | deleted _ _ _ _ _ _ hstate => cases hstate.symm.trans hst
  | stateless hopen | lost hopen | dataless hopen | unreadable hopen | uncreated hopen
  | created hopen | unstarted hopen | started hopen | running hopen | unknown hopen =>
    exact hopen.deletion

/-- **One reconcile**: the status that is stored tells the truth, exactly on
these courses. It does not matter how the status came to be what the reconcile
found. -/
theorem StatusStep.truthful_iff {a a' : ApiState} {v : Visit} {st : DomainState}
    (h : StatusStep a (some v) a') (hd : a.Distinct) (hv : v.Obtained st) :
    (∃ m, v.stored = some m ∧ m.report.Truthful st) ↔ v.course.Tells st := by
  cases h with
  | reconcile h =>
  obtain ⟨hst, herr⟩ := hv
  dsimp only at hst herr ⊢
  rcases reconcile_attended h with ⟨-, -, hidle, -⟩
    | ⟨m, after, out, err, -, tr₁, tr₂, s₁, -, hm, -, h₁, h₂, heq⟩
  · cases hidle.1.symm.trans hst
  obtain ⟨hmachine, hexit⟩ := obeys_attended reconcileMachine_course h₁
  have hcourse := obeys_attended (helperPatch_course hmachine hexit) h₂
  have hapi : s₁.api = a := (reconcileMachine_inner m).keeps Attended.api
    (fun s o r s' ho hs => attendedSem_reads ho.reads hs) h₁
  rw [hcourse] at hst ⊢
  rw [heq] at herr
  -- neither the reconcile nor the patch has failed
  obtain ⟨hout, rfl⟩ : out.err = none ∧ err = none := by
    cases hout : out.err with
    | some e =>
      rw [hout] at herr
      cases herr
    | none =>
      rw [hout] at herr
      exact ⟨rfl, herr⟩
  dsimp only at hexit
  rw [hout] at hexit
  have hdel := hexit.not_deleted hst
  have hdistinct := hd m hm
  rw [← hapi] at hm
  obtain ⟨stored, hstored, hready, hprovisioned, hconditions⟩ :=
    helperPatch_stored h₂ hm hdel (hexit.deletionTimestamp.trans hdel)
  have hreport : stored.report = m.storedReport after := by
    cases hw : m.wipes after with
    | true =>
      obtain ⟨hready', -, hprovisioned'⟩ := LibvirtMachine.blank_of_wipes hw
      simp only [hw, if_true] at hconditions
      simp only [LibvirtMachine.storedReport, hw, if_true, LibvirtMachine.report, hready,
        hprovisioned, hready', hprovisioned', hconditions]
      rfl
    | false =>
      simp only [hw, Bool.false_eq_true, if_false] at hconditions
      have hfind (t : ConditionType) : conditionStatus stored.status.conditions t
          = conditionStatus after.status.conditions t := by
        rw [conditionStatus, hconditions, findCondition_changes hdistinct
          (hexit.sets.distinct hdistinct) t hexit.sets.findCondition_none]
        rfl
      simp only [LibvirtMachine.storedReport, hw, Bool.false_eq_true, if_false,
        LibvirtMachine.report, hready, hprovisioned, hfind]
  rw [← hexit.truthful_iff hmachine hst, hstored, ← hreport]
  constructor
  · rintro ⟨m', hm', h'⟩
    cases hm'
    exact h'
  · intro h'
    exact ⟨stored, rfl, h'⟩

/-- **The status tells the truth.** In every run of the controller, with any
answers: after every reconcile that obtained a state of the domain and
returned no error, the status that is stored tells the truth about that state,
exactly if every such reconcile is on a course that does so (`Course.Tells`).
For a domain that is running or stopped this asks that the object read is not
said to be in the course of provisioning; for one whose state is unknown or
that is not there yet, that it is not said to be running, or loses its whole
status; and that no machine is created. The conditions are those of the
branches that leave a condition as they find it. -/
theorem status_truthful_iff {a a' : ApiState} {vs : List (Option Visit)} (hd : a.Distinct)
    (h : Run StatusStep a vs a') :
    (∀ v st, some v ∈ vs → v.Obtained st → ∃ m, v.stored = some m ∧ m.report.Truthful st)
    ↔ ∀ v st, some v ∈ vs → v.Obtained st → v.course.Tells st := by
  have hsteps := (h.forall_mem (I := ApiState.Distinct)
    (P := fun l => ∀ v st, l = some v → v.Obtained st →
      ((∃ m, v.stored = some m ∧ m.report.Truthful st) ↔ v.course.Tells st))
    (fun s l s' hs hstep => ⟨hstep.distinct hs, fun v st hl hv => by
      subst hl
      exact hstep.truthful_iff hs hv⟩) hd).2
  refine forall₄_congr fun v st hmem hv => ?_
  exact hsteps (some v) hmem v st rfl hv

/-- One reconcile with given answers, and what is stored after it. -/
def visitOn (a : ApiState) (c : SystemChoice) : Option (Visit × ApiState) :=
  (Prog.runWith attendedStep c reconcile ⟨a, {}⟩ []).map fun r =>
    (⟨r.2.1.course, r.2.2, r.2.1.api.machine⟩, r.2.1.api)

theorem step_of_visitOn {a a' : ApiState} {c : SystemChoice} {v : Visit}
    (h : visitOn a c = some (v, a')) : StatusStep a (some v) a' := by
  obtain ⟨⟨tr, s, outcome⟩, hr, heq⟩ := Option.map_eq_some_iff.mp h
  cases heq
  exact .reconcile (Prog.exec_of_runWith hr)

/-- A reconcile that finds the domain running says so. -/
theorem status_truthful_running :
    ∃ v a, Run StatusStep ⟨some provisionedMachine, some sampleCluster⟩ [some v] a
      ∧ v.Obtained .running ∧ ∃ m, v.stored = some m ∧ m.report.Truthful .running := by
  have hrun : (visitOn ⟨some provisionedMachine, some sampleCluster⟩
      { api := sampleAnswers, state := .running }).map (fun x =>
        (x.1.course.state, x.1.outcome.err, x.1.course.machine.map LibvirtMachine.report))
      = some (some .running, none, some provisionedMachine.report) := by decide +kernel
  obtain ⟨⟨v, a⟩, hv, heq⟩ := Option.map_eq_some_iff.mp hrun
  obtain ⟨hstate, herr, hmachine⟩ : v.course.state = some .running ∧ v.outcome.err = none
      ∧ v.course.machine.map LibvirtMachine.report = some provisionedMachine.report := by
    simpa using heq
  have ha : Run StatusStep ⟨some provisionedMachine, some sampleCluster⟩ [some v] a :=
    .snoc (.nil _) (step_of_visitOn hv)
  have hd : ApiState.Distinct ⟨some provisionedMachine, some sampleCluster⟩ := by
    intro m hm
    cases hm
    exact List.nodup_nil
  refine ⟨v, a, ha, ⟨hstate, herr⟩, (status_truthful_iff hd ha).mpr ?_ v .running
    List.mem_cons_self ⟨hstate, herr⟩⟩
  intro v' st hv' hobtained
  cases List.mem_singleton.mp hv'
  cases hstate.symm.trans hobtained.1
  intro m hm
  rw [hm] at hmachine
  rw [Option.some.inj hmachine]
  decide

/-- **A machine is said to be running that is not.** A reconcile finds the domain
running and reports its address; then the domain is paused on its host, and the
next reconcile takes back that the machine is ready and provisioned, but leaves
the condition. -/
theorem status_untruthful_unknown :
    ∃ v v' a m, Run StatusStep ⟨some provisionedMachine, some sampleCluster⟩ [some v, some v'] a
      ∧ v.Obtained .running ∧ v'.Obtained .unknown ∧ v'.stored = some m
      ∧ m.report = ⟨false, false, some .yes, none⟩ ∧ ¬ m.report.Truthful .unknown := by
  let answers (state : DomainState) : SystemChoice :=
    { api := sampleAnswers, state := state, address := "192.168.122.9" }
  have hrun : ((visitOn ⟨some provisionedMachine, some sampleCluster⟩ (answers .running)).bind
      fun x => (visitOn x.2 (answers .unknown)).map fun y =>
        (x.1.course.state, x.1.outcome.err, y.1.course.state, y.1.outcome.err,
          y.1.stored.map LibvirtMachine.report))
      = some (some .running, none, some .unknown, none, some ⟨false, false, some .yes, none⟩) := by
    decide +kernel
  obtain ⟨⟨v, a⟩, hv, hrun⟩ := Option.bind_eq_some_iff.mp hrun
  obtain ⟨⟨v', a'⟩, hv', heq⟩ := Option.map_eq_some_iff.mp hrun
  obtain ⟨hstate, herr, hstate', herr', hstored⟩ : v.course.state = some .running
      ∧ v.outcome.err = none ∧ v'.course.state = some .unknown ∧ v'.outcome.err = none
      ∧ v'.stored.map LibvirtMachine.report = some ⟨false, false, some .yes, none⟩ := by
    simpa using heq
  obtain ⟨m, hm, hreport⟩ := Option.map_eq_some_iff.mp hstored
  refine ⟨v, v', a', m, .snoc (.snoc (.nil _) (step_of_visitOn hv)) (step_of_visitOn hv'),
    ⟨hstate, herr⟩, ⟨hstate', herr'⟩, hm, hreport, ?_⟩
  rw [hreport]
  intro h
  cases h.1.mp rfl

end LibvirtProvider

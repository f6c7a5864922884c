import LibvirtProvider.Exits
import LibvirtProvider.Interleaving

/-!
# The finalizer guards the host

The object in the API server and the resources on the host are two stores
that are never written together. Between them stands the finalizer: as long
as it is on the object, the API server keeps the object when it is deleted,
and the controller gets to see it again.

Here the provider is as little as it can be (`systemStep`): creating a machine
may leave something at the place the configuration names, whatever it
returns, and when deleting one succeeds nothing is left at that place. The
controller is the program of `MachineController`, one reconcile at a time. Its
calls may fail, it may be cut off after any of them, and between any two a
user may delete the object, pause it or edit what else there is about it
(`Outside`).

The invariant is `Disciplined`. What is on the host keeps the finalizer in the
API server, and so does a reconcile on its way that read the object with the
finalizer, until it has deleted the machine; from then on the host is empty.
-/

namespace LibvirtProvider

open Interaction

/-! ## The system -/

/-- **The system**: the API server, the object as it was last read, and the
places that hold resources of the machine. Of a host nothing is kept but
whether something is there, which is all the finalizer is about. -/
structure System where
  api : ApiState
  read : Option LibvirtMachine
  held : Finset Place

/-- What the environment decides about a call. Of a call of the provider:
whether it fails, what else it answers, and whether something is left on the
host. -/
structure SystemChoice where
  api : ApiChoice := {}
  fault : Option GoError := none
  state : DomainState := .unknown
  address : String := ""
  left : Bool := false

/-- The answer of an operation. -/
def SystemChoice.answer {α : Type} (c : SystemChoice) (a : α) : Except GoError α :=
  match c.fault with
  | some err => .error err
  | none => .ok a

/-- The object as last read, after a request. -/
def System.reading (s : System) : (o : ApiOp) → o.Result → Option LibvirtMachine
  | .getLibvirtMachine, r => Except.toOption r
  | _, _ => s.read

/-- **The calls of the controller on the system.** A call to create may leave
something whether or not it fails, and a call to delete that fails may have
removed everything or nothing. -/
def systemStep (s : System) :
    (o : ControllerSig.Op) → SystemChoice → Option (ControllerSig.Ans o × System)
  | .api o, c =>
    (apiStep s.api o c.api).map fun r => (r.1, { s with api := r.2, read := s.reading o r.1 })
  | .provider (.getMachineState _), c => some (c.answer c.state, s)
  | .provider (.createMachine cfg), c =>
    some (c.answer (), { s with held := if c.left then insert cfg.place s.held else s.held })
  | .provider (.startMachine _), c => some (c.answer (), s)
  | .provider (.deleteMachine cfg), c =>
    -- only where it fails can something be left
    some (c.answer (), { s with
      held := if c.fault.isSome && c.left then s.held else s.held.erase cfg.place })
  | .provider (.getMachineAddress _), c => some (c.answer c.address, s)

/-- What the calls mean, over every choice of the environment. -/
def systemSem : Sem ControllerSig System := Prog.semOf systemStep

/-- **What happens outside the controller**: the object is deleted, paused or
edited in any way, except that nobody else adds or removes the finalizer; and
the `LibvirtCluster` is edited, or removed, with the spec as it is. -/
inductive Outside (spec : LibvirtClusterSpec) (s : System) : System → Prop where
  | edit {m m' : LibvirtMachine} (hm : s.api.machine = some m)
      (hfinalizer : libvirtMachineFinalizer ∈ m'.finalizers
        ↔ libvirtMachineFinalizer ∈ m.finalizers) :
      Outside spec s { s with api := { s.api with machine := m'.stores } }
  | cluster {c : Option LibvirtCluster} (hc : ∀ x, c = some x → x.spec = spec) :
      Outside spec s { s with api := { s.api with libvirtCluster := c } }

/-! ## The discipline -/

/-- **The discipline**, for what a reconcile has seen and the state of the
system. `guarded` is what is wanted. `pending` makes it inductive: a reconcile
that read the finalizer may be about to create, so the finalizer must not go
behind its back; only a reconcile that has deleted the machine takes it off. -/
structure Disciplined (spec : LibvirtClusterSpec) (q : Seen) (s : System) : Prop where
  cluster : ∀ c, s.api.libvirtCluster = some c → c.spec = spec
  seenCluster : ∀ c, q.libvirtCluster = some c → c.spec = spec
  place : ∀ p ∈ s.held, p = spec.place
  read : ∀ m, q.machine = some m → s.read = some m
  guarded : s.held.Nonempty → s.api.Guarded
  pending : ∀ m, q.machine = some m → libvirtMachineFinalizer ∈ m.finalizers →
    q.deleted = false → s.api.Guarded
  deleted : q.deleted = true →
    s.held = ∅ ∧ ∃ m, q.machine = some m ∧ m.deletionTimestamp = true

section Discipline

variable {spec : LibvirtClusterSpec} {q : Seen} {s s' : System}

/-- A request keeps the discipline, as far as it does not change what the
reconcile knows. -/
theorem Disciplined.request (h : Disciplined spec q s) {o : ApiOp} (ho : q.Allows (.api o))
    {r : o.Result} {a : ApiState} (hs : apiSem s.api o r a) :
    Disciplined spec q { s with api := a } := by
  rcases apiSem_cases hs with rfl | ⟨f, stored, -, -, -, rfl⟩
  · exact ⟨h.1, h.2, h.3, h.4, h.5, h.6, h.7⟩
  refine ⟨h.cluster, h.seenCluster, h.place, h.read, fun hheld => ?_,
    fun m hm hfin hdel => (h.pending m hm hfin hdel).request ho hdel hs, h.deleted⟩
  cases hdel : q.deleted with
  | false => exact (h.guarded hheld).request ho hdel hs
  | true =>
    -- nothing is held once the machine is deleted
    rw [(h.deleted hdel).1] at hheld
    cases Finset.not_nonempty_empty hheld

/-- Reading the object begins anew. -/
theorem Disciplined.readMachine (h : Disciplined spec q s)
    {r : Except ApiError LibvirtMachine} {a : ApiState} (hs : apiSem s.api .getLibvirtMachine r a) :
    Disciplined spec { machine := Except.toOption r }
      { s with api := a, read := Except.toOption r } := by
  obtain ⟨rfl, hr⟩ := apiSem_getLibvirtMachine hs
  refine ⟨h.cluster, nofun, h.place, fun m hm => hm, h.guarded, fun m hm hfin _ => ?_, nofun⟩
  cases r with
  | error err => cases hm
  | ok m' =>
    cases hm
    exact ⟨m, hr m rfl, hfin⟩

theorem Disciplined.readCluster (h : Disciplined spec q s) {key : NamespacedName}
    {r : Except GoError LibvirtCluster} {a : ApiState}
    (hs : apiSem s.api (.getLibvirtCluster key) r a) :
    Disciplined spec { q with libvirtCluster := Except.toOption r } { s with api := a } := by
  obtain ⟨rfl, hr⟩ := apiSem_getLibvirtCluster hs
  refine ⟨h.cluster, fun c hc => ?_, h.place, h.read, h.guarded, h.pending, h.deleted⟩
  cases r with
  | error err => cases hc
  | ok c' =>
    cases hc
    exact h.cluster c (hr c rfl)

/-- Creating a machine: the finalizer was read, so it is still there. -/
theorem Disciplined.create (h : Disciplined spec q s) {cfg : MachineConfig}
    (ho : q.Allows (.provider (.createMachine cfg))) {b : Bool} {held : Finset Place}
    (hheld : held ⊆ insert cfg.place s.held) :
    Disciplined spec { q with created := b } { s with held := held } := by
  obtain ⟨m, c, hm, hc, hcfg, hdel, hfin, -⟩ := ho
  have hnot : q.deleted = false := by
    by_contra hd
    obtain ⟨-, m', hm', hdel'⟩ := h.deleted (Bool.eq_true_of_not_eq_false hd)
    cases hm.symm.trans hm'
    exact Bool.false_ne_true (hdel.symm.trans hdel')
  refine ⟨h.cluster, h.seenCluster, fun p hp => ?_, h.read,
    fun _ => h.pending m hm hfin hnot, h.pending, fun hd => ?_⟩
  · rcases Finset.mem_insert.mp (hheld hp) with rfl | hp
    · exact hcfg.place_eq.trans (congrArg _ (h.seenCluster c hc))
    · exact h.place p hp
  · cases hnot.symm.trans hd

/-- Deleting a machine empties the host where it succeeds. -/
theorem Disciplined.delete (h : Disciplined spec q s) {cfg : MachineConfig}
    (ho : q.Allows (.provider (.deleteMachine cfg))) {ok : Bool} {held : Finset Place}
    (hheld : held ⊆ s.held) (hok : ok = true → held = s.held.erase cfg.place) :
    Disciplined spec { q with deleted := q.deleted || ok } { s with held := held } := by
  obtain ⟨m, c, hm, hc, hcfg, hdel, -⟩ := ho
  have hplace : cfg.place = spec.place :=
    hcfg.place_eq.trans (congrArg _ (h.seenCluster c hc))
  refine ⟨h.cluster, h.seenCluster, fun p hp => h.place p (hheld hp), h.read,
    fun hne => h.guarded (hne.mono hheld),
    fun m hm hfin hd => h.pending m hm hfin (Bool.or_eq_false_iff.mp hd).1, fun hd => ?_⟩
  refine ⟨?_, m, hm, hdel⟩
  rcases (Bool.or_eq_true _ _).mp hd with hd | hd
  · exact Finset.subset_empty.mp ((h.deleted hd).1 ▸ hheld)
  · rw [hok hd, Finset.eq_empty_iff_forall_notMem]
    intro p hp
    obtain ⟨hne, hp⟩ := Finset.mem_erase.mp hp
    exact hne ((h.place p hp).trans hplace.symm)

/-- **Every call of a reconcile keeps the discipline.** The cases are those of
the monitor; of the program nothing else is used. -/
theorem Disciplined.step (h : Disciplined spec q s) {o : ControllerSig.Op}
    {r : ControllerSig.Ans o} (ho : q.Allows o) (hs : systemSem s o r s') :
    Disciplined spec (q.next o r) s' := by
  obtain ⟨c, hc⟩ := hs
  match o with
  | .api o =>
    obtain ⟨⟨r', a⟩, ha, heq⟩ := Option.map_eq_some_iff.mp hc
    cases heq
    cases o with
    | getLibvirtMachine => exact h.readMachine ⟨_, ha⟩
    | getLibvirtCluster key => exact h.readCluster ⟨_, ha⟩
    | _ => exact h.request ho ⟨_, ha⟩
  | .provider (.getMachineState cfg) =>
    cases hc
    exact ⟨h.1, h.2, h.3, h.4, h.5, h.6, h.7⟩
  | .provider (.startMachine cfg) =>
    cases hc
    exact ⟨h.1, h.2, h.3, h.4, h.5, h.6, h.7⟩
  | .provider (.getMachineAddress cfg) =>
    cases hc
    exact h
  | .provider (.createMachine cfg) =>
    cases hc
    refine h.create ho ?_
    split
    · exact subset_rfl
    · exact Finset.subset_insert _ _
  | .provider (.deleteMachine cfg) =>
    cases hc
    refine h.delete ho ?_ fun hok => ?_
    · split
      · exact subset_rfl
      · exact Finset.erase_subset _ _
    · cases hf : c.fault with
      | none => rfl
      | some err =>
        rw [SystemChoice.answer, hf] at hok
        cases hok

/-- What happens outside keeps the discipline. -/
theorem Disciplined.outside (h : Disciplined spec q s) (hs : Outside spec s s') :
    Disciplined spec q s' := by
  cases hs with
  | @edit m m' hm hfinalizer =>
    have hguarded (hg : s.api.Guarded) :
        ApiState.Guarded { s.api with machine := m'.stores } := by
      obtain ⟨x, hx, hfin⟩ := hg
      cases hm.symm.trans hx
      have hmem := hfinalizer.mpr hfin
      exact ⟨m', LibvirtMachine.stores_of_mem hmem, hmem⟩
    exact ⟨h.cluster, h.seenCluster, h.place, h.read, fun hne => hguarded (h.guarded hne),
      fun m hm hfin hdel => hguarded (h.pending m hm hfin hdel), h.deleted⟩
  | cluster hc => exact ⟨hc, h.seenCluster, h.place, h.read, h.guarded, h.pending, h.deleted⟩

/-- A new reconcile has seen nothing. -/
theorem Disciplined.start (h : Disciplined spec q s) : Disciplined spec {} s :=
  ⟨h.cluster, nofun, h.place, nofun, h.guarded, nofun, nofun⟩

end Discipline

/-! ## Runs of the controller -/

/-- The controller with its system. -/
abbrev Deployment := Pool Unit System ControllerSig Outcome

/-- A deployment before its first reconcile, with nothing on the host. -/
def Deployment.initial (api : ApiState) : Deployment where
  state := { api := api, read := none, held := ∅ }
  prog _ := .done {}

/-- **The runs of a deployment**: reconciles one after the other, each cut off
anywhere or not at all, and between any two calls what happens outside. -/
def Deployment.Reach (spec : LibvirtClusterSpec) : Deployment → Deployment → Prop :=
  Pool.Reach systemSem (fun _ p => p = reconcile) (Outside spec) (fun _ _ => True)

/-- **A deployment stays disciplined along every run**, whatever is answered,
wherever a reconcile is cut off and whatever users do in between. -/
theorem Deployment.Reach.disciplined {spec : LibvirtClusterSpec} {api : ApiState}
    (hspec : ∀ c, api.libvirtCluster = some c → c.spec = spec) {c : Deployment}
    (h : Deployment.Reach spec (.initial api) c) :
    Pool.Monitored (fun _ => reconcileMonitor) (fun q s => Disciplined spec (q ()) s) c := by
  refine Pool.Monitored.reach (fun _ => {}) ?_ ?_ ?_ ?_ ?_ h
  · rintro q s ⟨⟩ o r s' hq ho hs -
    rw [Function.update_self]
    exact hq.step ho hs
  · rintro q s ⟨⟩ hq
    rw [Function.update_self]
    exact hq.start
  · rintro _ _ rfl
    exact reconcile_obeys
  · intro q s s' hq hs
    exact hq.outside hs
  · exact ⟨fun _ => {}, ⟨hspec, nofun, nofun, nofun, nofun, nofun, nofun⟩, fun _ => trivial⟩

/-- **No orphans.** In every run, a machine is created only by a reconcile
that read the object with the finalizer on it, and the object is gone only
when the host holds nothing of it. A reconcile begins by reading the object,
so that what was last read is what it read. -/
theorem finalizer_guards_host {spec : LibvirtClusterSpec} {api : ApiState}
    (hspec : ∀ c, api.libvirtCluster = some c → c.spec = spec) {c : Deployment}
    (h : Deployment.Reach spec (.initial api) c) :
    (∀ cfg k, c.prog () = .call (.provider (.createMachine cfg)) k →
      ∃ m, c.state.read = some m ∧ libvirtMachineFinalizer ∈ m.finalizers)
    ∧ (c.state.api.machine = none → c.state.held = ∅) := by
  obtain ⟨q, hq, hobeys⟩ := h.disciplined hspec
  constructor
  · intro cfg k hprog
    have ho := hobeys ()
    rw [hprog] at ho
    obtain ⟨m, -, hm, -, -, -, hfin, -⟩ := ho.1
    exact ⟨m, hq.read m hm, hfin⟩
  · intro hgone
    by_contra hne
    obtain ⟨m, hm, -⟩ := hq.guarded (Finset.nonempty_iff_ne_empty.mpr hne)
    cases hgone.symm.trans hm

/-! ### A run -/

/-- A reconcile, on the given choices. -/
def scheduled (cs : List SystemChoice) : List (Pool.Move Unit SystemChoice ControllerSig Outcome) :=
  .start () reconcile :: cs.map (.call ())

/-- The object is deleted by a user. -/
def Deployment.userDelete (c : Deployment) : Option Deployment :=
  c.state.api.machine.map fun m => { c with state := { c.state with api :=
    { c.state.api with machine := { m with deletionTimestamp := true }.stores } } }

/-- The finalizer is added, and the next reconcile is about to create the
machine. -/
def untilCreate : Option Deployment :=
  let ok : SystemChoice := { api := sampleAnswers }
  Pool.play systemStep (Deployment.initial ⟨some sampleMachine, some sampleCluster⟩)
    (scheduled (List.replicate 7 ok)
      ++ scheduled (List.replicate 6 ok ++ [{ ok with state := .notFound }, ok]))

/-- Creating it fails and leaves something on the host, a user deletes the
object, the patches fail, and a last reconcile deletes the machine. -/
def untilGone (c : Deployment) : Option Deployment :=
  let ok : SystemChoice := { api := sampleAnswers }
  let down : SystemChoice := { api := { fault := some "timeout" } }
  (Pool.play systemStep c
      [.call () { ok with fault := some (.text "no space"), left := true }]).bind fun c =>
    (Deployment.userDelete c).bind fun c =>
      Pool.play systemStep c ([.call () down, .call () down] ++ scheduled (List.replicate 8 ok))

/-- Whether the next call is to create a machine. -/
def Deployment.creates (c : Deployment) : Bool :=
  match c.prog () with
  | .call (.provider (.createMachine _)) _ => true
  | _ => false

theorem Deployment.reach_play {spec : LibvirtClusterSpec} {c c' : Deployment}
    {ms : List (Pool.Move Unit SystemChoice ControllerSig Outcome)}
    (hms : ∀ i p, Pool.Move.start i p ∈ ms → p = reconcile)
    (h : Pool.play systemStep c ms = some c') : Deployment.Reach spec c c' :=
  Pool.reach_of_play hms h

theorem reach_userDelete {spec : LibvirtClusterSpec} {c c' : Deployment}
    (h : Deployment.userDelete c = some c') : Deployment.Reach spec c c' := by
  obtain ⟨m, hm, rfl⟩ := Option.map_eq_some_iff.mp h
  exact .single ⟨.env, .env (.edit hm Iff.rfl), fun _ _ _ => trivial⟩

theorem reach_untilCreate {c : Deployment} (h : untilCreate = some c) :
    Deployment.Reach sampleCluster.spec
      (Deployment.initial ⟨some sampleMachine, some sampleCluster⟩) c := by
  unfold untilCreate at h
  exact Deployment.reach_play (by simp [scheduled]) h

theorem reach_untilGone {c c' : Deployment} (h : untilGone c = some c') :
    Deployment.Reach sampleCluster.spec c c' := by
  obtain ⟨c₁, h₁, h⟩ := Option.bind_eq_some_iff.mp h
  obtain ⟨c₂, h₂, h₃⟩ := Option.bind_eq_some_iff.mp h
  exact ((Deployment.reach_play (by simp) h₁).trans (reach_userDelete h₂)).trans
    (Deployment.reach_play (by simp [scheduled]) h₃)

theorem finalizer_guards_host_run :
    ∃ c c' : Deployment, Deployment.creates c = true
      ∧ (∃ m, c.state.read = some m ∧ libvirtMachineFinalizer ∈ m.finalizers)
      ∧ Deployment.Reach sampleCluster.spec c c'
      ∧ c'.state.api.machine = none ∧ c'.state.held = ∅ := by
  have hc : untilCreate.map Deployment.creates = some true := by decide +kernel
  have hgone : (untilCreate.bind untilGone).map (·.state.api.machine.isNone) = some true := by
    decide +kernel
  obtain ⟨c, hcreate, hcreates⟩ := Option.map_eq_some_iff.mp hc
  obtain ⟨c', hc', hnone⟩ := Option.map_eq_some_iff.mp hgone
  rw [hcreate] at hc'
  have hreach := reach_untilCreate hcreate
  have hreach' := reach_untilGone hc'
  have hnone := Option.isNone_iff_eq_none.mp hnone
  have hspec : ∀ x, some sampleCluster = some x → x.spec = sampleCluster.spec := by
    rintro _ ⟨⟩
    rfl
  refine ⟨c, c', hcreates, ?_, hreach', hnone,
    (finalizer_guards_host hspec (hreach.trans hreach')).2 hnone⟩
  have h := (finalizer_guards_host hspec hreach).1
  unfold Deployment.creates at hcreates
  split at hcreates
  · rename_i cfg k hprog
    exact h cfg k hprog
  · cases hcreates

end LibvirtProvider

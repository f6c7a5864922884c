import LibvirtProvider.Manager

/-!
# Whose domain a reconcile works on

A machine is identified by its UUID, and its domain is found by its name. The
name is made of the namespace and the name of the object, cut to length, with
six digits of a hash: two objects can have the same one, and so can an object
of another management cluster that has the same namespace and name. No
operation compares the UUID of the domain it finds with the machine's.

`OnlyOwn` says of the calls of a reconcile that they stay with the machine's
own domain. Whether every reconcile of a machine does is decided by the host:
it does if the domain of the machine's name, if there is one, has the
machine's UUID (`reconcile_onlyOwn_iff`), and a reconcile that does not is
there in every other case.
-/

namespace LibvirtProvider

open Interaction

/-! ## Staying with one's own domain -/

namespace ManagerOp

/-- The handle of a domain that a call is made on. -/
def handle : ManagerOp → Option DomainRef
  | .provider (.libvirt _ o) => o.handle
  | _ => none

/-- Starting, destroying or undefining a domain. -/
def touches : ManagerOp → Option DomainRef
  | .provider (.libvirt _ (.create dom)) => some dom
  | .provider (.libvirt _ (.destroy dom)) => some dom
  | .provider (.libvirt _ (.undefine dom)) => some dom
  | _ => none

/-- Asking for the state of a domain. -/
def observes : ManagerOp → Option DomainRef
  | .provider (.libvirt _ (.getState dom)) => some dom
  | _ => none

/-- Reporting the machine ready or provisioned, or giving it a provider ID.
These are the writes by which the controller says that there is a machine. -/
def marks : ManagerOp → Bool
  | .api (.patch before after) => after.spec.providerID ≠ before.spec.providerID
  | .api (.patchStatus before after) =>
    after.status.ready && !before.status.ready
      || after.status.provisioned && !before.status.provisioned
  | _ => false

theorem handle_of_touches {o : ManagerOp} {dom : DomainRef} (h : o.touches = some dom) :
    o.handle = some dom := by
  unfold touches at h
  split at h <;> cases h <;> rfl

theorem handle_of_observes {o : ManagerOp} {dom : DomainRef} (h : o.observes = some dom) :
    o.handle = some dom := by
  unfold observes at h
  split at h <;> cases h
  rfl

end ManagerOp

/-- **Only its own domain**: every domain that is started, destroyed or
undefined has the UUID, and where the machine is marked, so has the domain
whose state was asked for. -/
def OnlyOwn (uuid : String) (tr : List (Event ManagerSig)) : Prop :=
  (∀ ev ∈ tr, ∀ dom, ManagerOp.touches ev.1 = some dom → dom.uuid = uuid)
  ∧ ((∃ ev ∈ tr, ManagerOp.marks ev.1 = true) →
    ∀ ev ∈ tr, ∀ dom, ManagerOp.observes ev.1 = some dom → dom.uuid = uuid)

/-- Two states of the object of one machine. -/
def LibvirtMachine.SameIdentity (m m' : LibvirtMachine) : Prop :=
  m'.name = m.name ∧ m'.nmspace = m.nmspace ∧ domainUUID m' = domainUUID m

/-- **Every reconcile of the machine**, whatever else there is about its
object, stays with the machine's own domain. It is asked for every state of
the object, since finalizers, deletion and status change while the domain
stays. -/
def ReconcilesOnlyOwn (m : LibvirtMachine) (c : LibvirtCluster) (w : World) : Prop :=
  ∀ m', m.SameIdentity m' → ∀ tr s' outcome,
    Prog.Exec managerSem manage ⟨⟨some m', some c⟩, w⟩ tr s' outcome → OnlyOwn (domainUUID m) tr

/-! ## Where the domain of the name is the machine's own -/

/-- What a reconcile of the machine keeps: what it reads is the machine's
object and the cluster, and the domain of the machine's name is its own. The
object may be edited by the reconcile itself, which keeps its identity. -/
structure AtHome (m : LibvirtMachine) (c : LibvirtCluster) (q : Seen) (s : Management) : Prop where
  fresh : q.machine = none → ∀ x, s.api.machine = some x → m.SameIdentity x
  machine : ∀ x, q.machine = some x → m.SameIdentity x
  cluster : s.api.libvirtCluster = some c
  seenCluster : ∀ x, q.libvirtCluster = some x → x = c
  own : ∀ host, s.world.hostOf c.spec.uri = some host →
    (s.world.hosts host).domains.Own (domainName m) (domainUUID m)

section AtHome

variable {m : LibvirtMachine} {c : LibvirtCluster} {q : Seen} {s s' : Management}

theorem LibvirtMachine.SameIdentity.domainName_eq {m m' : LibvirtMachine}
    (h : m.SameIdentity m') : domainName m' = domainName m :=
  domainName_congr h.1 h.2.1

theorem AtHome.request (h : AtHome m c q s) {o : ApiOp} (ho : q.Allows (.api o)) {r : o.Result}
    {a : ApiState} (hs : apiSem s.api o r a) :
    AtHome m c (q.next (.api o) r) { s with api := a } := by
  rcases apiSem_cases hs with rfl | ⟨f, stored, hf, -, -, rfl⟩
  · cases o with
    | getLibvirtMachine =>
      refine ⟨fun _ => h.fresh ho, fun x hx => ?_, h.cluster, nofun, h.own⟩
      cases r with
      | error err => cases hx
      | ok y =>
        cases hx
        exact h.fresh ho x ((apiSem_getLibvirtMachine hs).2 x rfl)
    | getLibvirtCluster key =>
      refine ⟨h.fresh, h.machine, h.cluster, fun x hx => ?_, h.own⟩
      cases r with
      | error err => cases hx
      | ok y =>
        cases hx
        exact Option.some.inj (((apiSem_getLibvirtCluster hs).2 x rfl).symm.trans h.cluster)
    | _ => exact h
  · -- a patch is made after the object was read
    obtain ⟨before, after, hbefore, -⟩ := ho.edit hf
    have hnext : q.next (.api o) r = q := by cases o <;> first | rfl | cases hf
    have hread : q.machine ≠ none := hbefore ▸ Option.some_ne_none before
    rw [hnext]
    exact ⟨fun hnone => absurd hnone hread, h.machine, h.cluster, h.seenCluster, h.own⟩

/-- **An operation stays with the machine's own domain.** -/
theorem AtHome.operate (huuid : domainUUID m ≠ "") (h : AtHome m c q s) {o : MachineOp}
    (ho : q.Allows (.provider o)) {tr : List (Event ProviderSig)} {r : o.Result} {w : World}
    (he : Prog.Exec providerSem (provide o) s.world tr w r) :
    AtHome m c (q.next (.provider o) r) { s with world := w }
    ∧ ∀ ev ∈ tr, ∀ dom, ManagerOp.handle (.provider ev.1) = some dom → dom.uuid = domainUUID m := by
  obtain ⟨m₁, c₁, hm₁, hc₁, hcfg, -⟩ := ho
  obtain rfl := h.seenCluster c₁ hc₁
  have hid := h.machine m₁ hm₁
  have hnext : (q.next (.provider o) r).machine = q.machine
      ∧ (q.next (.provider o) r).libvirtCluster = q.libvirtCluster := by
    cases o <;> exact ⟨rfl, rfl⟩
  have hworld (hown : ∀ host, w.hostOf c₁.spec.uri = some host →
      (w.hosts host).domains.Own (domainName m) (domainUUID m)) :
      AtHome m c₁ (q.next (.provider o) r) { s with world := w } :=
    ⟨hnext.1 ▸ h.fresh, hnext.1 ▸ h.machine, h.cluster, hnext.2 ▸ h.seenCluster, hown⟩
  rcases provide_exec he with ⟨rfl, ⟨e, rfl⟩, -⟩ | ⟨host, tr', t, hhost, hx, rfl, rfl⟩
  · refine ⟨hworld h.own, ?_⟩
    intro ev hev dom hdom
    rw [List.mem_singleton.mp hev] at hdom
    cases hdom
  · rw [isFor_uri hcfg] at hhost
    have hobeys := provideOn_obeys o
    rw [isFor_domainName hcfg, isFor_domainUUID hcfg, hid.domainName_eq, hid.2.2] at hobeys
    obtain ⟨hown, hhandles⟩ := handles_exec huuid hobeys (h.own host hhost) hx
    refine ⟨hworld fun host' hhost' => ?_, ?_⟩
    · cases hhost.symm.trans hhost'
      rwa [World.hosts_setHost_self]
    · intro ev hev dom hdom
      rcases List.mem_cons.mp hev with rfl | hev
      · cases hdom
      · obtain ⟨ev', hev', rfl⟩ := List.mem_map.mp hev
        exact hhandles ev' hev' dom hdom

/-- **A reconcile works on handles of the machine's own domain**, where that
is what the name leads to. Nothing else keeps it from another one. -/
theorem manage_handles (huuid : domainUUID m ≠ "") (h : AtHome m c {} s)
    {tr : List (Event ManagerSig)} {outcome : Outcome}
    (he : Prog.Exec managerSem manage s tr s' outcome) :
    ∀ ev ∈ tr, ∀ dom, ManagerOp.handle ev.1 = some dom → dom.uuid = domainUUID m := by
  refine (reconcile_obeys.interp_exec (R := AtHome m c) (H := fun _ => True) ?_ h
    (fun _ _ => trivial) he).2
  rintro q s (o | o) tr r s' hq ho - hx
  · obtain ⟨hs, rfl⟩ := Prog.exec_perform.mp hx
    obtain ⟨a, ha, rfl⟩ := managerSem_api.mp hs
    refine ⟨hq.request ho ha, ?_⟩
    intro ev hev dom hdom
    rw [List.mem_singleton.mp hev] at hdom
    cases hdom
  · obtain ⟨tr', w, hw, rfl, rfl⟩ := exec_provider.mp hx
    obtain ⟨hq', hhandles⟩ := hq.operate huuid ho hw
    refine ⟨hq', ?_⟩
    intro ev hev dom hdom
    obtain ⟨ev', hev', rfl⟩ := List.mem_map.mp hev
    exact hhandles ev' hev' dom hdom

end AtHome

/-! ## Where it is another one -/

/-- A deletion that finds a domain of the name goes on to undefine it, whoever
it belongs to. -/
theorem deleteResources_undefines {cfg : MachineConfig} {s : Host} {d : Domain}
    (hd : s.domains.lookup cfg.domainName = some d) :
    ∃ tr e, Prog.Exec libvirtSem (deleteResources cfg).run s tr s (.error e)
      ∧ ∃ ev ∈ tr, ev.1 = .undefine ⟨cfg.domainName, d.uuid⟩ := by
  have hlookup : libvirtSem s (.lookupDomainByName cfg.domainName)
      (.ok ⟨cfg.domainName, d.uuid⟩ : Except GoError DomainRef) s :=
    LibvirtChoice.exists_answer.mpr
      (Or.inr ⟨by simp [Domains.lookupDomainByName, hd, Except.mapError], rfl⟩)
  have hactive : libvirtSem s (.isActive ⟨cfg.domainName, d.uuid⟩)
      (.error (s.errors.error (.other 38)) : Except GoError Bool) s :=
    LibvirtChoice.exists_answer.mpr (Or.inl ⟨⟨38, rfl⟩, rfl⟩)
  have hundefine : libvirtSem s (.undefine ⟨cfg.domainName, d.uuid⟩)
      (.error (s.errors.error (.other 38)) : Except GoError Unit) s :=
    LibvirtChoice.exists_answer.mpr (Or.inl ⟨⟨38, rfl⟩, rfl⟩)
  have hdelete : ∃ tr e, Prog.Exec libvirtSem (deleteDomain cfg.domainName).run s tr s (.error e)
      ∧ ∃ ev ∈ tr, ev.1 = .undefine ⟨cfg.domainName, d.uuid⟩ := by
    refine ⟨_, _, Prog.exec_lift_bind.mpr ⟨_, s, _, _, rfl,
      Prog.exec_perform.mpr ⟨hlookup, rfl⟩, Prog.exec_lift_bind.mpr ⟨_, s, _, _, rfl,
        Prog.exec_perform.mpr ⟨hactive, rfl⟩, Prog.exec_adapt.mpr ⟨_,
          Prog.exec_perform.mpr ⟨hundefine, rfl⟩, rfl⟩⟩⟩, ?_⟩
    exact ⟨_, List.mem_append_right _ (List.mem_append_right _ (List.mem_singleton.mpr rfl)), rfl⟩
  obtain ⟨tr, e, he, hev⟩ := hdelete
  exact ⟨tr, e, Prog.exec_bind_except.mpr (Or.inl ⟨e, he, rfl⟩), hev⟩

/-- A reconcile of an object that is being deleted calls for the domain of the
name to be undefined. -/
theorem manage_undefines {m : LibvirtMachine} {c : LibvirtCluster} {w : World} {host : ℕ}
    {d : Domain} (hdel : m.deletionTimestamp = true) (hhost : w.hostOf c.spec.uri = some host)
    (hd : (w.hosts host).domains.lookup (domainName m) = some d) :
    ∃ tr s' outcome, Prog.Exec managerSem manage ⟨⟨some m, some c⟩, w⟩ tr s' outcome
      ∧ ∃ ev ∈ tr, ManagerOp.touches ev.1 = some ⟨domainName m, d.uuid⟩ := by
  have hd' : (w.hosts host).domains.lookup (newMachineConfig m c).domainName = some d := hd
  obtain ⟨tr₁, e, he, ⟨o, r⟩, hev, rfl⟩ := deleteResources_undefines hd'
  have hconnected : Prog.Exec providerSem (deleteMachine (newMachineConfig m c)).run w _ _ _ :=
    exec_connected hhost he
  obtain ⟨tr, outcome, hexec, hevents⟩ :=
    exec_manage_of_delete (s := ⟨⟨some m, some c⟩, w⟩) rfl rfl hdel hconnected
  exact ⟨tr, _, outcome, hexec, _,
    hevents _ (List.mem_cons_of_mem _ (List.mem_map_of_mem hev)), rfl⟩

/-! ## When every reconcile stays with its own domain -/

/-- **A machine stays with its own domain exactly where the domain of its name
is its own.** Where it is not, a reconcile of the deleted object undefines it:
the code has no check that would stop it, so that what is on the host decides
alone. -/
theorem reconcile_onlyOwn_iff {m : LibvirtMachine} {c : LibvirtCluster} {w : World}
    (huuid : domainUUID m ≠ "") :
    ReconcilesOnlyOwn m c w ↔ ∀ host, w.hostOf c.spec.uri = some host →
      (w.hosts host).domains.Own (domainName m) (domainUUID m) := by
  constructor
  · intro h host hhost d hd
    have hid : m.SameIdentity { m with deletionTimestamp := true } := ⟨rfl, rfl, rfl⟩
    obtain ⟨tr, s', outcome, hexec, ev, hev, htouches⟩ :=
      manage_undefines (m := { m with deletionTimestamp := true }) rfl hhost hd
    exact (h _ hid tr s' outcome hexec).1 ev hev _ htouches
  · intro hown m' hid tr s' outcome hexec
    have hhome : AtHome m c {} ⟨⟨some m', some c⟩, w⟩ :=
      ⟨fun _ x hx => Option.some.inj hx ▸ hid, nofun, rfl, nofun, hown⟩
    have hhandles := manage_handles huuid hhome hexec
    exact ⟨fun ev hev dom hdom => hhandles ev hev dom (ManagerOp.handle_of_touches hdom),
      fun _ ev hev dom hdom => hhandles ev hev dom (ManagerOp.handle_of_observes hdom)⟩

theorem reconcile_onlyOwn_home :
    domainUUID sampleMachine ≠ ""
    ∧ ((homeManagement.world.hosts 0).domains.lookup (domainName sampleMachine)).isSome = true
    ∧ ReconcilesOnlyOwn sampleMachine sampleCluster homeManagement.world := by
  have huuid : domainUUID sampleMachine ≠ "" := by decide
  have hlookup (host : ℕ) : (homeManagement.world.hosts host).domains.lookup
      (domainName sampleMachine) = some _ := AList.lookup_insert _
  refine ⟨huuid, hlookup 0 ▸ rfl, (reconcile_onlyOwn_iff huuid).mpr fun host hhost d hd => ?_⟩
  cases (hlookup host).symm.trans hd
  rfl

/-- A host with a running domain of the machine's name that was made, with its
volumes, for an object of another management cluster. -/
def foreignWorld : World :=
  freshWorld.setHost 0 { freshHost.stock sampleConfig [1, 2, 3] with
    domains := (∅ : Domains).insert (domainName sampleMachine)
      ⟨"c41d8e77", newDomain (domainName sampleMachine), true, true, .running, true⟩ }

/-- The machine's object, as it is deleted. -/
def deletedMachine : LibvirtMachine :=
  { sampleMachine with finalizers := [libvirtMachineFinalizer], deletionTimestamp := true }

/-- The UUIDs of the domains that are touched. -/
def touchedUUIDs (tr : List (Event ManagerSig)) : List String :=
  tr.filterMap fun ev => (ManagerOp.touches ev.1).map DomainRef.uuid

/-- **A reconcile destroys a domain that is not the machine's.** Every call
succeeds; the domain of another machine is stopped and undefined, and the
object is gone. -/
theorem reconcile_destroys_foreign :
    ∃ tr s' outcome, Prog.Exec managerSem manage
        ⟨⟨some deletedMachine, some sampleCluster⟩, foreignWorld⟩ tr s' outcome
      ∧ ¬ OnlyOwn (domainUUID deletedMachine) tr
      ∧ ((foreignWorld.hosts 0).domains.lookup (domainName deletedMachine)).isSome = true
      ∧ ((s'.world.hosts 0).domains.lookup (domainName deletedMachine)).isNone = true
      ∧ s'.api.machine.isNone = true := by
  have hrun : (Prog.runWith managerStep calm manage
        ⟨⟨some deletedMachine, some sampleCluster⟩, foreignWorld⟩ []).map (fun r =>
          (touchedUUIDs r.1,
            ((r.2.1.world.hosts 0).domains.lookup (domainName deletedMachine)).isNone,
            r.2.1.api.machine.isNone))
      = some (["c41d8e77", "c41d8e77"], true, true) := by decide +kernel
  obtain ⟨⟨tr, s', outcome⟩, hr, hout⟩ := Option.map_eq_some_iff.mp hrun
  obtain ⟨htouched, hgone, hnone⟩ : touchedUUIDs tr = ["c41d8e77", "c41d8e77"]
      ∧ ((s'.world.hosts 0).domains.lookup (domainName deletedMachine)).isNone = true
      ∧ s'.api.machine.isNone = true := by simpa only [Prod.mk.injEq] using hout
  refine ⟨tr, s', outcome, Prog.exec_of_runWith hr, fun hown => ?_, by decide +kernel, hgone, hnone⟩
  have hmem : "c41d8e77" ∈ touchedUUIDs tr := by simp [htouched]
  obtain ⟨ev, hev, hdom⟩ := List.mem_filterMap.mp hmem
  obtain ⟨dom, hdom, huuid⟩ := Option.map_eq_some_iff.mp hdom
  have hne : domainUUID deletedMachine ≠ "c41d8e77" := by decide
  exact hne ((hown.1 ev hev dom hdom).symm.trans huuid)

end LibvirtProvider

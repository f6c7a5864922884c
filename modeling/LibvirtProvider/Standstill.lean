import LibvirtProvider.Cleanup
import LibvirtProvider.Manager

/-!
# Where nothing begins

`isLibvirtErr` looks for a `*libvirt.Error` in an error, and the binding
returns `libvirt.Error`. So an error that says that there is no domain is like
any other one. `GetMachineState` fails where there is no domain, instead of
answering so; `CreateMachine` is called after that answer only; and starting or
deleting what is not there fails as well. A machine whose domain is not on its
host stays that way: no reconcile makes anything of it, none takes its
finalizer off, and none reports it as provisioned.

`Host.Unseen` is the situation of a host, and `Standstill` what every call of a
reconcile keeps. That nothing changes is proved from what the operations do, and
that `CreateMachine` is not among them from what a reconcile may call.
-/

namespace LibvirtProvider

open Interaction

/-! ## Operations that find nothing -/

/-- **The machine is out of sight** of a host: its domain is not there, and an
error that says so is not recognised. Its volumes and its entry may be there
or not. -/
structure Host.Unseen (s : Host) (name : String) : Prop where
  errors : s.errors = .value
  absent : s.domains.lookup name = none

namespace Host.Unseen

variable {s s' : Host} {name : String} {tr : List (Event LibvirtSig)}

/-- Every lookup ends with an error that is passed on. -/
theorem lookup (h : s.Unseen name) {r : Except GoError DomainRef}
    (hs : libvirtSem s (.lookupDomainByName name) r s') :
    s' = s ∧ ∃ e, r = .error e ∧ isLibvirtErr e .noDomain = false := by
  refine ⟨libvirtSem_query hs rfl, ?_⟩
  rcases LibvirtChoice.exists_answer.mp hs with ⟨⟨code, rfl⟩, -⟩ | ⟨rfl, -⟩
  · exact ⟨_, rfl, by simp⟩
  · refine ⟨s.errors.error .noDomain, ?_, by simp [h.errors]⟩
    simp [Domains.lookupDomainByName, h.absent, Except.mapError]

theorem getDomainState (h : s.Unseen name) {r : Except GoError DomainState}
    (he : Prog.Exec libvirtSem (getDomainState name).run s tr s' r) :
    s' = s ∧ ∃ e, r = .error e := by
  obtain ⟨found, s₁, _, tr₁, rfl, hx, h₁⟩ := Prog.exec_lift_bind.mp he
  obtain ⟨rfl, e, rfl, hcode⟩ := h.lookup (Prog.exec_perform.mp hx).1
  obtain ⟨rfl, rfl, -⟩ := Prog.exec_excused.mp h₁
  exact ⟨rfl, _, if_neg (by simp [hcode])⟩

theorem deleteDomain (h : s.Unseen name) {r : Except GoError Unit}
    (he : Prog.Exec libvirtSem (deleteDomain name).run s tr s' r) :
    s' = s ∧ ∃ e, r = .error e := by
  obtain ⟨found, s₁, _, tr₁, rfl, hx, h₁⟩ := Prog.exec_lift_bind.mp he
  obtain ⟨rfl, e, rfl, hcode⟩ := h.lookup (Prog.exec_perform.mp hx).1
  obtain ⟨rfl, rfl, -⟩ := Prog.exec_excused.mp h₁
  exact ⟨rfl, _, if_neg (by simp [hcode])⟩

/-- **No operation but `CreateMachine` does anything** where the machine is out
of sight, and those that look for its domain fail. -/
theorem provideOn {o : MachineOp} {r : o.Result} (h : s.Unseen o.cfg.domainName)
    (hcreate : ∀ cfg, o ≠ .createMachine cfg)
    (he : Prog.Exec libvirtSem (provideOn o) s tr s' r) :
    s' = s ∧ (o.Fails r ∨ ∃ cfg, o = .getMachineAddress cfg) := by
  cases o with
  | getMachineState cfg => exact (h.getDomainState he).imp_right Or.inl
  | createMachine cfg => exact absurd rfl (hcreate cfg)
  | startMachine cfg =>
    rcases startDomain_exec he with ⟨hfails, heq⟩ | ⟨-, d, hd, -⟩
    · exact ⟨heq, Or.inl hfails⟩
    · cases h.absent.symm.trans hd
  | deleteMachine cfg =>
    rcases Prog.exec_bind_except.mp he with ⟨e, hx, rfl⟩ | ⟨_, s₁, tr₁, _, rfl, hx, -⟩
    · exact ⟨(h.deleteDomain hx).1, Or.inl ⟨e, rfl⟩⟩
    · obtain ⟨-, e, he⟩ := h.deleteDomain hx
      cases he
  | getMachineAddress cfg => exact ⟨machineAddressOn_exec he, Or.inr ⟨cfg, rfl⟩⟩

end Host.Unseen

/-- The machine is out of sight where a URI leads to. -/
def World.Unseen (w : World) (name uri : String) : Prop :=
  ∀ host, w.hostOf uri = some host → (w.hosts host).Unseen name

theorem World.Unseen.provide {w w' : World} {o : MachineOp} {r : o.Result}
    {tr : List (Event ProviderSig)} (h : w.Unseen o.cfg.domainName o.cfg.uri)
    (hcreate : ∀ cfg, o ≠ .createMachine cfg) (he : Prog.Exec providerSem (provide o) w tr w' r) :
    w' = w ∧ (o.Fails r ∨ ∃ cfg, o = .getMachineAddress cfg) := by
  rcases provide_exec he with ⟨rfl, -, hfails⟩ | ⟨host, tr', t, hhost, hx, -, rfl⟩
  · exact ⟨rfl, Or.inl hfails⟩
  · obtain ⟨rfl, hr⟩ := (h host hhost).provideOn hcreate hx
    exact ⟨w.setHost_hosts host, hr⟩

/-! ## A reconcile that gets nowhere -/

/-- **What a reconcile keeps** of a machine that is out of sight where the
cluster is: the hosts are as they were, no operation has succeeded that says
anything about the domain, and the finalizer stays on the object. Each
supports the others: without an answer nothing is created, and without a
domain there is no answer. -/
structure Standstill (name : String) (s₀ : Management) (q : Seen) (s : Management) : Prop where
  world : s.world = s₀.world
  cluster : s.api.libvirtCluster = s₀.api.libvirtCluster
  unseen : ∀ c, s₀.api.libvirtCluster = some c → s₀.world.Unseen name c.spec.uri
  stored : ∀ m, s.api.machine = some m → domainName m = name
  read : ∀ m, q.machine = some m → domainName m = name
  seen : ∀ c, q.libvirtCluster = some c → s₀.api.libvirtCluster = some c
  guarded : s₀.api.Guarded → s.api.Guarded
  state : q.state = none
  idle : q.created = false ∧ q.started = false ∧ q.deleted = false

namespace Standstill

variable {name : String} {s₀ s : Management} {q : Seen}

/-- At the start of a reconcile. -/
theorem begin (hstored : ∀ m, s₀.api.machine = some m → domainName m = name)
    (hunseen : ∀ c, s₀.api.libvirtCluster = some c → s₀.world.Unseen name c.spec.uri) :
    Standstill name s₀ {} s₀ :=
  ⟨rfl, rfl, hunseen, hstored, nofun, nofun, id, rfl, rfl, rfl, rfl⟩

theorem request (h : Standstill name s₀ q s) {o : ApiOp} (ho : q.Allows (.api o)) {r : o.Result}
    {a : ApiState} (hs : apiSem s.api o r a) :
    Standstill name s₀ (q.next (.api o) r) { s with api := a } := by
  have hguarded : s₀.api.Guarded → a.Guarded := fun hg =>
    (h.guarded hg).request ho h.idle.2.2 hs
  rcases apiSem_cases hs with rfl | ⟨f, stored, hf, hstored, -, rfl⟩
  · cases o with
    | getLibvirtMachine =>
      refine ⟨h.world, h.cluster, h.unseen, h.stored, fun m hm => ?_, nofun, hguarded, rfl, rfl,
        rfl, rfl⟩
      cases r with
      | error err => cases hm
      | ok m' =>
        cases hm
        exact h.stored m ((apiSem_getLibvirtMachine hs).2 m rfl)
    | getLibvirtCluster key =>
      refine ⟨h.world, h.cluster, h.unseen, h.stored, h.read, fun c hc => ?_, hguarded, h.state,
        h.idle⟩
      cases r with
      | error err => cases hc
      | ok c' =>
        cases hc
        exact h.cluster.symm.trans ((apiSem_getLibvirtCluster hs).2 c rfl)
    | _ => exact h
  · have hnext : q.next (.api o) r = q := by cases o <;> first | rfl | cases hf
    rw [hnext]
    refine ⟨h.world, h.cluster, h.unseen, fun m hm => ?_, h.read, h.seen, hguarded, h.state, h.idle⟩
    obtain rfl := LibvirtMachine.eq_of_stores hm
    obtain ⟨hname, hnmspace⟩ := ApiOp.edit_name hf stored
    exact (domainName_congr hname hnmspace).trans (h.stored stored hstored)

/-- **`CreateMachine` is not called**: nothing has been answered that would
call for it. -/
theorem not_create (h : Standstill name s₀ q s) {o : MachineOp} (ho : q.Allows (.provider o))
    (cfg : MachineConfig) : o ≠ .createMachine cfg := by
  rintro rfl
  cases h.state.symm.trans ho.state_of_create

theorem operate (h : Standstill name s₀ q s) {o : MachineOp} (ho : q.Allows (.provider o))
    {tr : List (Event ProviderSig)} {r : o.Result} {w : World}
    (he : Prog.Exec providerSem (provide o) s.world tr w r) :
    Standstill name s₀ (q.next (.provider o) r) { s with world := w } := by
  have hcreate := h.not_create ho
  obtain ⟨m, c, hm, hc, hcfg, hpermits⟩ := ho
  have hunseen : s.world.Unseen o.cfg.domainName o.cfg.uri := by
    rw [isFor_domainName hcfg, h.read m hm, isFor_uri hcfg, h.world]
    exact h.unseen c (h.seen c hc)
  obtain ⟨rfl, hr⟩ := hunseen.provide hcreate he
  have hfails (hne : ∀ cfg, o ≠ .getMachineAddress cfg) : o.Fails r :=
    hr.resolve_right fun ⟨cfg, hcfg⟩ => hne cfg hcfg
  cases o with
  | getMachineState cfg =>
    obtain ⟨e, rfl⟩ := hfails nofun
    exact { h with state := rfl }
  | createMachine cfg => exact absurd rfl (hcreate cfg)
  | startMachine cfg =>
    cases h.state.symm.trans hpermits.2.2
  | deleteMachine cfg =>
    obtain ⟨e, rfl⟩ := hfails nofun
    exact { h with idle := ⟨h.idle.1, h.idle.2.1, (Bool.or_false _).trans h.idle.2.2⟩ }
  | getMachineAddress cfg => exact h

/-- **A whole reconcile** keeps it, whichever of its calls fail besides. -/
theorem manage (h : Standstill name s₀ {} s₀) {tr : List (Event ManagerSig)} {s' : Management}
    {outcome : Outcome} (he : Prog.Exec managerSem manage s₀ tr s' outcome) :
    ∃ q, Standstill name s₀ q s' := by
  suffices hrun : (∃ q, Standstill name s₀ q s' ∧ True) ∧ ∀ ev ∈ tr, True by
    obtain ⟨⟨q, hq, -⟩, -⟩ := hrun
    exact ⟨q, hq⟩
  refine reconcile_obeys.interp_exec (R := Standstill name s₀) (H := fun _ => True)
    (G := fun _ => True) ?_ h (fun _ _ => trivial) he
  rintro q s (o | o) tr r s' hq ho - hx
  · obtain ⟨hs, rfl⟩ := Prog.exec_perform.mp hx
    obtain ⟨a, ha, rfl⟩ := managerSem_api.mp hs
    exact ⟨hq.request ho ha, fun _ _ => trivial⟩
  · obtain ⟨tr', w, hw, rfl, rfl⟩ := exec_provider.mp hx
    exact ⟨hq.operate ho hw, fun _ _ => trivial⟩

end Standstill

end LibvirtProvider

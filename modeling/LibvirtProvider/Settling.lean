import LibvirtProvider.Cleanup
import LibvirtProvider.CloudInit
import LibvirtProvider.DomainHandles
import LibvirtProvider.ReserveRelease

/-!
# Deleting a machine again

A deletion that fails is tried again, so what matters is that the attempts
come to an end. A deletion *settles* when of two in which no call fails the
second returns nil, nothing of the machine is left then, and a further one
returns nil and changes nothing (`Settles`). Whether it does depends on one
thing only, the form of the errors (`deleteMachine_settles_iff`).

When they come by value, it never does. Each lookup of `DeleteMachine` has to
find something, and from a host that held nothing of the machine no attempt to
create it puts a volume there. When they come as pointers, two deletions are
enough from every state that creating, starting and deleting machines lead to,
whichever calls failed on the way. One can be too few: a domain that was
undefined while it ran is gone once it is stopped, and then there is nothing to
undefine, which `deleteDomain` reports. Two things about the past make the
second enough: the domain of a name is defined or running in every state, so
that one of the two calls finds something to do (`Standing`), and the host
entry stands under the machine's name where the update looks for it (`Sole`).
-/

namespace LibvirtProvider

open Interaction

/-! ## Calls that do not fail -/

/-- What the calls on a host mean when none of them fails. A call that finds
nothing to work on says so still: that is its answer, and not a fault. -/
def workingHostSem : Sem LibvirtSig Host := fun s o r s' =>
  ∃ c : LibvirtChoice, c.fault = none ∧ libvirtStep s o c = some (r, s')

/-- What the calls of the provider mean when none of them fails. -/
def workingProviderSem : Sem ProviderSig World := fun w o r w' =>
  ∃ c : LibvirtChoice, c.fault = none ∧ providerStep w o c = some (r, w')

section Working

variable {α : Type} {s s' : Host} {w : World} {cfg : MachineConfig}

theorem LibvirtChoice.answer_of_fault_eq_none {c : LibvirtChoice} (hc : c.fault = none)
    (m : Except ErrorNumber α × Host) :
    c.answer s m = some (m.1.mapError s.errors.error, m.2) := by
  rw [LibvirtChoice.answer, hc]

theorem exec_of_working {p : Prog LibvirtSig α} {tr : List (Event LibvirtSig)} {a : α}
    (h : Prog.Exec workingHostSem p s tr s' a) : Prog.Exec libvirtSem p s tr s' a := by
  refine h.map (g := id) ?_
  rintro _ _ _ _ ⟨c, -, hc⟩
  exact ⟨c, hc⟩

theorem errors_of_yields {p : Prog LibvirtSig α} {a : α}
    (h : Prog.Yields workingHostSem p s s' a) : s'.errors = s.errors := by
  obtain ⟨tr, he⟩ := h.run
  exact exec_errors (exec_of_working he)

/-- Every call has an answer, but for the one that stands for a computation
that does not end. So a program that does not make it can be run to its end. -/
theorem workingHostSem_total (s : Host) {o : LibvirtOp} (ho : ∀ net, o ≠ .network net .hang) :
    ∃ r s', workingHostSem s o r s' := by
  cases o with
  | network net o =>
    have hsome : (libvirtStep s (.network net o) {}).isSome = true := by
      cases hnet : s.networks net.name with
      | none =>
        cases o with
        | hang => exact absurd rfl (ho net)
        | _ => simp only [libvirtStep, hnet, networkMissing]; rfl
      | some network =>
        cases o with
        | hang => exact absurd rfl (ho net)
        | update cmd parentIndex host flags =>
          simp only [libvirtStep, hnet, networkStep, Option.isSome_map]
          cases network.update cmd parentIndex host <;> rfl
        | _ => simp [libvirtStep, hnet, networkStep]
    obtain ⟨⟨r, s'⟩, hstep⟩ := Option.isSome_iff_exists.mp hsome
    exact ⟨r, s', {}, rfl, hstep⟩
  | _ => exact ⟨_, _, {}, rfl, rfl⟩

theorem perform_yields {o : LibvirtOp} {r : LibvirtSig.Ans o}
    (h : ∀ c : LibvirtChoice, c.fault = none → libvirtStep s o c = some (r, s')) :
    Prog.Yields workingHostSem (Prog.perform (σ := LibvirtSig) o) s s' r := by
  refine .perform ⟨{}, rfl, h _ rfl⟩ ?_
  rintro r' t ⟨c, hc, ht⟩
  cases (h c hc).symm.trans ht
  exact ⟨rfl, rfl⟩

/-- **On a network of a host**, a program yields what it yields on the
network. Results on the allocation of addresses carry over by this. -/
theorem onNetwork_yields (net : NetworkRef) {p : NetworkM α} {network network' : Network}
    {r : Except GoError α} (hnet : s.networks net.name = some network)
    (h : Prog.Yields workingSem p.run network network' r) :
    Prog.Yields workingHostSem (Conn.onNetwork net p).run s (s.setNetwork net.name network') r := by
  refine Prog.Yields.interp_at net.event (fun (s : Host) n => s.setNetwork net.name n)
    (fun tr s' b => exec_onNetwork_iff ?_ hnet) h
  intro s network o r s' hs
  constructor
  · rintro ⟨c, hc, hstep⟩
    obtain ⟨network', hx, rfl⟩ := (libvirtStep_network hs).mp hstep
    exact ⟨network', ⟨_, hc, hx⟩, rfl⟩
  · rintro ⟨network', ⟨c, hc, hx⟩, rfl⟩
    exact ⟨{ fault := c.fault, leases := c.leases }, hc,
      (libvirtStep_network hs).mpr ⟨_, hx, rfl⟩⟩

/-- **Over a connection**, a program yields what it yields on the host. The
connection itself does not fail here, since no call does. -/
theorem connected_yields {p : LibvirtM α} {host : ℕ} {r : Except GoError α}
    (hhost : w.hostOf cfg.uri = some host)
    (h : Prog.Yields workingHostSem p.run (w.hosts host) s' r) :
    Prog.Yields workingProviderSem (connected cfg p).run w (w.setHost host s') r := by
  have hconnect : Prog.Yields workingProviderSem
      (Prog.perform (σ := ProviderSig) (.connect cfg.toInfraConfig)) w w
      (.ok ⟨host⟩ : Except GoError ConnRef) := by
    refine .perform ⟨{}, rfl, by simp only [providerStep, hhost]⟩ ?_
    rintro r' t ⟨c, hc, hstep⟩
    simp only [providerStep, hc, hhost] at hstep
    cases hstep
    exact ⟨rfl, rfl⟩
  refine .bind_ok (Prog.Yields.adapt _ (x := ExceptT.mk _) hconnect) ?_
  refine Prog.Yields.interp_at (ConnRef.event ⟨host⟩) (fun (w : World) s => w.setHost host s)
    (fun tr w' b => ?_) h
  refine Prog.exec_interp_part (fun w : World => w.hosts host) (fun w s => w.setHost host s)
    (fun w s => w.hosts_setHost_self host s) (fun w s s' => w.setHost_setHost host s s')
    (fun w => w.setHost_hosts host) ?_
  intro w o r tr w'
  constructor
  · intro he
    obtain ⟨⟨c, hc, hstep⟩, rfl⟩ := Prog.exec_perform.mp he
    obtain ⟨⟨_, s'⟩, hx, heq⟩ := Option.map_eq_some_iff.mp hstep
    cases heq
    exact ⟨s', ⟨c, hc, hx⟩, rfl, rfl⟩
  · rintro ⟨s', ⟨c, hc, hx⟩, rfl, rfl⟩
    exact Prog.exec_perform.mpr ⟨⟨c, hc, Option.map_eq_some_iff.mpr ⟨(r, s'), hx, rfl⟩⟩, rfl⟩

end Working

/-! ## The domain -/

/-- **A domain of the name stands on something**: it is defined or it runs.
With neither, stopping it and undefining it would both report that there is
nothing to do, time after time. -/
def Domains.Standing (ds : Domains) (name : String) : Prop :=
  ∀ d, ds.lookup name = some d → d.persistent = true ∨ d.active = true

section Standing

variable {s s' : Host} {name : String} {ds : Domains}

theorem Domains.Standing.insert (h : ds.Standing name) {n : String} {d : Domain}
    (hd : n = name → d.persistent = true ∨ d.active = true) :
    Domains.Standing (AList.insert n d ds) name := by
  intro d' hd'
  by_cases hn : n = name
  · subst hn
    rw [AList.lookup_insert] at hd'
    cases hd'
    exact hd rfl
  · rw [AList.lookup_insert_ne (Ne.symm hn)] at hd'
    exact h d' hd'

theorem Domains.Standing.erase (h : ds.Standing name) (n : String) :
    Domains.Standing (AList.erase n ds) name := by
  intro d' hd'
  by_cases hn : name = n
  · subst hn
    rw [AList.lookup_erase] at hd'
    cases hd'
  · rw [AList.lookup_erase_ne hn] at hd'
    exact h d' hd'

/-- **No call leaves a domain that is neither defined nor running.** libvirt
forgets a domain when the last of the two goes. -/
theorem Domains.Standing.step {o : LibvirtSig.Op} {r : LibvirtSig.Ans o}
    (h : s.domains.Standing name) (hs : libvirtSem s o r s') : s'.domains.Standing name := by
  cases ht : o.touchesDomains with
  | false =>
    rw [libvirtSem_domains hs ht]
    exact h
  | true =>
    cases o with
    | domainDefineXML xml =>
      rcases libvirtSem_domainDefineXML hs with ⟨-, rfl⟩ | ⟨_, -, -, d, -, hp, rfl⟩
      · exact h
      · exact h.insert fun _ => Or.inl hp
    | setAutostart dom autostart =>
      rcases libvirtSem_setAutostart hs with ⟨-, rfl⟩ | ⟨-, d, -, hp, rfl⟩
      · exact h
      · exact h.insert fun _ => Or.inl hp
    | create dom =>
      rcases libvirtSem_create hs with ⟨-, rfl⟩ | ⟨-, d, -, -, rfl⟩
      · exact h
      · exact h.insert fun _ => Or.inr rfl
    | destroy dom =>
      rcases libvirtSem_destroy hs with ⟨-, rfl⟩ | ⟨-, d, -, -, rfl⟩
      · exact h
      dsimp only
      split
      · rename_i hp
        exact h.insert fun _ => Or.inl hp
      · exact h.erase _
    | undefine dom =>
      rcases libvirtSem_undefine hs with ⟨-, rfl⟩ | ⟨-, d, -, -, rfl⟩
      · exact h
      dsimp only
      split
      · rename_i ha
        exact h.insert fun _ => Or.inr ha
      · exact h.erase _
    | _ => cases ht

end Standing

section Domain

variable {s : Host} {name : String} {d : Domain}

theorem lookupDomainByName_yields (s : Host) (name : String) :
    Prog.Yields workingHostSem (Conn.lookupDomainByName name).run s s
      ((s.domains.lookupDomainByName name).mapError s.errors.error) :=
  perform_yields fun _ hc => LibvirtChoice.answer_of_fault_eq_none hc _

theorem deleteDomain_yields_of_lookup_eq_none (hform : s.errors = .pointer)
    (h : s.domains.lookup name = none) :
    Prog.Yields workingHostSem (deleteDomain name).run s s (.ok ()) := by
  have hlookup : (s.domains.lookupDomainByName name).mapError s.errors.error
      = .error (.libvirtPtr .noDomain) := by
    rw [Domains.lookupDomainByName, h, hform]
    rfl
  refine .lift_bind (lookupDomainByName_yields s name) ?_
  rw [hlookup]
  exact .done _

/-- By value, that there is no domain is an error of the deletion. The code
means to take it as done, and does not recognise the error that says so. -/
theorem deleteDomain_yields_of_value (hform : s.errors = .value)
    (h : s.domains.lookup name = none) :
    Prog.Yields workingHostSem (deleteDomain name).run s s
      (.error (.wrap s!"lookup domain {name}" (.libvirt .noDomain))) := by
  have hlookup : (s.domains.lookupDomainByName name).mapError s.errors.error
      = .error (.libvirt .noDomain) := by
    rw [Domains.lookupDomainByName, h, hform]
    rfl
  refine .lift_bind (lookupDomainByName_yields s name) ?_
  rw [hlookup]
  exact .done _

theorem isActive_yields (h : s.domains.lookup name = some d) :
    Prog.Yields workingHostSem (Conn.isActive ⟨name, d.uuid⟩).run s s (.ok d.active) := by
  have hactive : s.domains.isActive ⟨name, d.uuid⟩ = .ok d.active := by
    rw [Domains.isActive, Domains.get_eq_some.mpr ⟨h, rfl⟩]
  refine perform_yields fun _ hc => ?_
  rw [libvirtStep, LibvirtChoice.answer_of_fault_eq_none hc, hactive]
  rfl

theorem destroy_yields (f : GoError → GoError) {dom : DomainRef} {ds : Domains}
    {r : Except ErrorNumber Unit} (h : s.domains.destroy dom = (r, ds)) :
    Prog.Yields workingHostSem (ExceptT.adapt f (Conn.destroy dom)).run s
      { s with domains := ds } ((r.mapError s.errors.error).mapError f) := by
  refine Prog.Yields.adapt f (x := Conn.destroy dom) (perform_yields fun _ hc => ?_)
  rw [libvirtStep, LibvirtChoice.answer_of_fault_eq_none hc, h]
  rfl

theorem undefine_yields (f : GoError → GoError) {dom : DomainRef} {ds : Domains}
    {r : Except ErrorNumber Unit} (h : s.domains.undefine dom = (r, ds)) :
    Prog.Yields workingHostSem (ExceptT.adapt f (Conn.undefine dom)).run s
      { s with domains := ds } ((r.mapError s.errors.error).mapError f) := by
  refine Prog.Yields.adapt f (x := Conn.undefine dom) (perform_yields fun _ hc => ?_)
  rw [libvirtStep, LibvirtChoice.answer_of_fault_eq_none hc, h]
  rfl

/-- Undefining a domain that does not run removes it. -/
theorem Domains.undefine_of_inactive {ds : Domains} (h : ds.lookup name = some d)
    (hp : d.persistent = true) (ha : d.active = false) :
    ds.undefine ⟨name, d.uuid⟩ = (.ok (), ds.erase name) := by
  rw [Domains.undefine, Domains.get_eq_some.mpr ⟨h, rfl⟩]
  simp [hp, ha]

/-- **A domain that is defined is gone after one deletion**, whether it ran or
not, and the deletion succeeds. This holds for either form of the errors, as
nothing is missing. -/
theorem deleteDomain_yields_of_persistent (h : s.domains.lookup name = some d)
    (hp : d.persistent = true) :
    ∃ ds : Domains, Prog.Yields workingHostSem (deleteDomain name).run s { s with domains := ds }
      (.ok ()) ∧ ds.lookup name = none := by
  cases ha : d.active with
  | false =>
    refine ⟨s.domains.erase name, .lift_bind (lookupDomainByName_yields s name) ?_,
      AList.lookup_erase _ _⟩
    rw [Domains.lookupDomainByName, h]
    refine .lift_bind (isActive_yields h) ?_
    rw [ha]
    exact undefine_yields _ (Domains.undefine_of_inactive h hp ha)
  | true =>
    have hdestroy : s.domains.destroy ⟨name, d.uuid⟩ = (.ok (),
        s.domains.insert name { d with active := false, state := .shutoff }) := by
      rw [Domains.destroy, Domains.get_eq_some.mpr ⟨h, rfl⟩]
      simp [hp, ha]
    refine ⟨AList.erase name (s.domains.insert name { d with active := false, state := .shutoff }),
      .lift_bind (lookupDomainByName_yields s name) ?_, AList.lookup_erase _ _⟩
    rw [Domains.lookupDomainByName, h]
    refine .lift_bind (isActive_yields h) ?_
    rw [ha]
    exact .bind_ok (destroy_yields _ hdestroy) (undefine_yields _
      (Domains.undefine_of_inactive (d := { d with active := false, state := .shutoff })
        (AList.lookup_insert _) hp rfl))

/-- **A domain that runs and is not defined** is gone after one deletion as
well, but the deletion fails: there is nothing to undefine. The volumes are
not reached, and are left to the next deletion. -/
theorem deleteDomain_yields_of_transient (h : s.domains.lookup name = some d)
    (hp : d.persistent = false) (ha : d.active = true) :
    ∃ e, Prog.Yields workingHostSem (deleteDomain name).run s
      { s with domains := s.domains.erase name } (.error e) := by
  have hdestroy : s.domains.destroy ⟨name, d.uuid⟩ = (.ok (), s.domains.erase name) := by
    rw [Domains.destroy, Domains.get_eq_some.mpr ⟨h, rfl⟩]
    simp [hp, ha]
  have hundefine : Domains.undefine (s.domains.erase name) ⟨name, d.uuid⟩
      = (.error .noDomain, s.domains.erase name) := by
    rw [Domains.undefine, Domains.get]
    simp [AList.lookup_erase]
  refine ⟨.wrap s!"undefine domain {name}" (s.errors.error .noDomain),
    .lift_bind (lookupDomainByName_yields s name) ?_⟩
  rw [Domains.lookupDomainByName, h]
  refine .lift_bind (isActive_yields h) ?_
  rw [ha]
  exact .bind_ok (destroy_yields _ hdestroy)
    (undefine_yields (s := { s with domains := s.domains.erase name }) _ hundefine)

end Domain

/-! ## The volumes and the host entry -/

section Rest

variable {s : Host} {cfg : MachineConfig}

/-- **A volume is gone after one deletion**, and the others are what they
were. By value, it has to be there: that it is not is an error then. -/
theorem deleteVolume_yields (pool name : String)
    (hfound : s.errors = .value → (s.storage.volume pool name).isSome) :
    ∃ storage, Prog.Yields workingHostSem (deleteVolume pool name).run s
        { s with storage := storage } (.ok ())
      ∧ storage.volume pool name = none
      ∧ (∀ p n, ¬ (p = pool ∧ n = name) → storage.volume p n = s.storage.volume p n)
      ∧ (s.storage.volume pool name = none → storage = s.storage) := by
  have hpool : Prog.Yields workingHostSem (Conn.lookupStoragePoolByName pool).run s s
      ((s.storage.lookupStoragePoolByName pool).mapError s.errors.error) :=
    perform_yields fun _ hc => LibvirtChoice.answer_of_fault_eq_none hc _
  have hvolume : Prog.Yields workingHostSem (Conn.lookupStorageVolByName ⟨pool⟩ name).run s s
      ((s.storage.lookupStorageVolByName ⟨pool⟩ name).mapError s.errors.error) :=
    perform_yields fun _ hc => LibvirtChoice.answer_of_fault_eq_none hc _
  have hpointer (hnone : s.storage.volume pool name = none) : s.errors = .pointer :=
    ErrorForm.eq_pointer fun hform => Option.isSome_iff_ne_none.mp (hfound hform) hnone
  cases hp : s.storage.pools pool with
  | none =>
    have hform := hpointer (by simp [Storage.volume, hp])
    have hlookup : (s.storage.lookupStoragePoolByName pool).mapError s.errors.error
        = .error (.libvirtPtr .noStoragePool) := by
      rw [Storage.lookupStoragePoolByName, hp, hform]
      rfl
    refine ⟨s.storage, .lift_bind hpool ?_, by simp [Storage.volume, hp], fun _ _ _ => rfl,
      fun _ => rfl⟩
    rw [hlookup]
    exact .done _
  | some p =>
    cases hv : s.storage.volume pool name with
    | none =>
      have hform := hpointer hv
      have hlookup : (s.storage.lookupStorageVolByName ⟨pool⟩ name).mapError s.errors.error
          = .error (.libvirtPtr .noStorageVol) := by
        rw [Storage.lookupStorageVolByName, hv, hform]
        rfl
      refine ⟨s.storage, .lift_bind hpool ?_, hv, fun _ _ _ => rfl, fun _ => rfl⟩
      rw [Storage.lookupStoragePoolByName, hp]
      refine .lift_bind hvolume ?_
      rw [hlookup]
      exact .done _
    | some v =>
      refine ⟨s.storage.setVolume pool name none, .lift_bind hpool ?_,
        s.storage.volume_setVolume_self _ (by simp [Storage.target, hp]),
        fun p n hne => s.storage.volume_setVolume_of_ne _ hne, fun h => by cases h⟩
      rw [Storage.lookupStoragePoolByName, hp]
      refine .lift_bind hvolume ?_
      rw [Storage.lookupStorageVolByName, hv]
      refine Prog.Yields.adapt _ (x := Conn.deleteVol ⟨pool, name⟩ 0) (b := .ok ())
        (perform_yields fun _ hc => ?_)
      rw [libvirtStep, LibvirtChoice.answer_of_fault_eq_none hc, Storage.deleteVol, hv]
      rfl

/-- **The entry of a machine that stands alone is released**, and where there
was none nothing changes. An entry that does not stand alone could be hidden
from the update by another one. -/
theorem Sole.releaseMachineIP_yields {d : String} {network : Network} (h : Sole d network)
    (netName : String) :
    ∃ network', Prog.Yields workingSem (releaseMachineIP netName d (deriveDomainMAC d)).run network
        network' (.ok ())
      ∧ (∀ e ∈ network'.hosts, foldKey e.mac ≠ foldKey (deriveDomainMAC d))
      ∧ ((∀ e ∈ network.hosts, foldKey e.mac ≠ foldKey (deriveDomainMAC d)) →
        network' = network) := by
  cases he : hostEntryInNetwork network (deriveDomainMAC d) with
  | none =>
    refine ⟨network, .bind_ok (networkXML_yields network) ?_, hostEntryInNetwork_eq_none.mp he,
      fun _ => rfl⟩
    rw [he]
    exact .done _
  | some e =>
    obtain ⟨hmac, pre, post, hhosts, -⟩ := hostEntryInNetwork_eq_some.mp he
    have hmem : e ∈ network.hosts := hhosts ▸ by simp
    have hfirst := (Network.mem_hosts.mp hmem).resolve_right fun hmem => h.rest e hmem hmac
    -- the entry is the one of the machine's, so it has its name
    have hname : e.name = d := by
      rcases h.first with hnone | ⟨x, -, hname, hfilter⟩
      · exact absurd hmac (hnone e hfirst)
      · have hx : e ∈ network.firstHosts.filter (ownEntry d) :=
          List.mem_filter.mpr ⟨hfirst, ownEntry_iff.mpr (Or.inl hmac)⟩
        rw [hfilter, List.mem_singleton] at hx
        rw [hx, hname]
    obtain ⟨network', hu⟩ := (Network.exists_update_delete
      ⟨deriveDomainMAC d, d, e.ip⟩).mpr ⟨e, hfirst, hmac, hname, rfl⟩
    have hyields := LibvirtProvider.releaseMachineIP_yields netName d he
    rw [hu] at hyields
    obtain ⟨tr, hrun⟩ := hyields.run
    have hrun' : Prog.Exec networkSem (releaseMachineIP netName d (deriveDomainMAC d)).run network
        tr network' (.ok ()) := by
      refine hrun.map (g := id) ?_
      rintro _ _ _ _ ⟨c, -, hstep⟩
      exact ⟨c, hstep⟩
    exact ⟨network', hyields, (h.release hrun').1, fun hnone => absurd hmac (hnone e hmem)⟩

/-- **The reservation is released**, where the entry stands alone. By value, the
network has to be there. -/
theorem releaseMachineReservation_yields
    (hfound : s.errors = .value → (s.networks cfg.network).isSome)
    (hsole : ∀ network, s.networks cfg.network = some network → Sole cfg.domainName network) :
    ∃ networks, Prog.Yields workingHostSem (releaseMachineReservation cfg).run s
        { s with networks := networks } (.ok ())
      ∧ (∀ network, networks cfg.network = some network →
        ∀ e ∈ network.hosts, foldKey e.mac ≠ foldKey cfg.mac)
      ∧ ((∀ network, s.networks cfg.network = some network →
        ∀ e ∈ network.hosts, foldKey e.mac ≠ foldKey cfg.mac) → networks = s.networks) := by
  have hlookup : Prog.Yields workingHostSem (Conn.lookupNetworkByName cfg.network).run s s
      ((s.lookupNetworkByName cfg.network).mapError s.errors.error) :=
    perform_yields fun _ hc => LibvirtChoice.answer_of_fault_eq_none hc _
  cases hnet : s.networks cfg.network with
  | none =>
    have hform : s.errors = .pointer :=
      ErrorForm.eq_pointer fun hform => Option.isSome_iff_ne_none.mp (hfound hform) hnet
    have hnone : (s.lookupNetworkByName cfg.network).mapError s.errors.error
        = .error (.libvirtPtr .noNetwork) := by
      rw [Host.lookupNetworkByName, hnet, hform]
      rfl
    refine ⟨s.networks, .lift_bind hlookup ?_, fun _ hn => ?_, fun _ => rfl⟩
    · rw [hnone]
      exact .done _
    · cases hn.symm.trans hnet
  | some network =>
    obtain ⟨network', hyields, hgone, hself⟩ :=
      (hsole network hnet).releaseMachineIP_yields cfg.network
    refine ⟨(s.setNetwork cfg.network network').networks, .lift_bind hlookup ?_, fun n hn => ?_,
      fun hnone => ?_⟩
    · rw [Host.lookupNetworkByName, hnet]
      exact onNetwork_yields ⟨cfg.network⟩ hnet hyields
    · rw [Host.networks_setNetwork_self] at hn
      cases hn
      exact hgone
    · rw [hself (hnone network rfl), Host.setNetwork_self hnet]

end Rest

/-! ## A deletion -/

section Delete

variable {s : Host} {cfg : MachineConfig}

/-- **A deletion that removes the domain** leaves nothing of the machine, and
where nothing of it was left it changes nothing more. By value, this takes a
host that has the whole machine. -/
theorem deleteResources_yields {ds : Domains} (hwhole : s.errors = .value → Whole cfg s)
    (hsole : ∀ network, s.networks cfg.network = some network → Sole cfg.domainName network)
    (h : Prog.Yields workingHostSem (deleteDomain cfg.domainName).run s { s with domains := ds }
      (.ok ()))
    (hgone : ds.lookup cfg.domainName = none) :
    ∃ s', Prog.Yields workingHostSem (deleteResources cfg).run s s' (.ok ()) ∧ Clean cfg s'
      ∧ (Clean cfg s → s' = { s with domains := ds }) := by
  obtain ⟨storage₂, h₂, hdisk, hkeep₂, hself₂⟩ :=
    deleteVolume_yields (s := { s with domains := ds }) cfg.domainPool cfg.domainDiskName
      fun hform => (hwhole hform).rootDisk
  obtain ⟨storage₃, h₃, hiso, hkeep, hself₃⟩ :=
    deleteVolume_yields (s := { s with domains := ds, storage := storage₂ }) cfg.domainPool
      cfg.isoDiskName fun hform => by
        show (storage₂.volume cfg.domainPool cfg.isoDiskName).isSome
        rw [hkeep₂ _ _ fun heq => cfg.domainDiskName_ne_isoDiskName heq.2.symm]
        exact (hwhole hform).isoDisk
  obtain ⟨networks, h₄, hentry, hself₄⟩ := releaseMachineReservation_yields
    (s := { s with domains := ds, storage := storage₃ }) (fun hform => (hwhole hform).network)
    hsole
  refine ⟨_, .bind_ok h (.bind_ok h₂ (.bind_ok h₃ h₄)), ⟨hgone, ?_, hiso, hentry⟩, fun hclean => ?_⟩
  · exact (hkeep _ _ fun heq => cfg.domainDiskName_ne_isoDiskName heq.2).trans hdisk
  · obtain rfl := hself₂ hclean.rootDisk
    obtain rfl := hself₃ hclean.isoDisk
    rw [hself₄ hclean.entry]

/-- **Deleting a machine of which nothing is left** changes nothing. -/
theorem Clean.deleteResources_yields (hform : s.errors = .pointer) (h : Clean cfg s) :
    Prog.Yields workingHostSem (deleteResources cfg).run s s (.ok ()) := by
  have hwhole : s.errors = .value → Whole cfg s := fun hvalue => by cases hvalue.symm.trans hform
  obtain ⟨s', hyields, -, hself⟩ := LibvirtProvider.deleteResources_yields hwhole
    (fun network hnet => .of_none (h.entry network hnet))
    (deleteDomain_yields_of_lookup_eq_none hform h.domain) h.domain
  rw [hself h] at hyields
  exact hyields

/-- **Two deletions are enough**, on a host. The first removes the domain at
least, if it does not succeed; the second finds none, and goes on to the rest. -/
theorem deleteResources_settles (hform : s.errors = .pointer)
    (hsole : ∀ network, s.networks cfg.network = some network → Sole cfg.domainName network)
    (hstanding : s.domains.Standing cfg.domainName) :
    ∃ s₁ r s₂, Prog.Yields workingHostSem (deleteResources cfg).run s s₁ r
      ∧ Prog.Yields workingHostSem (deleteResources cfg).run s₁ s₂ (.ok ()) ∧ Clean cfg s₂ := by
  have hkeeps {s' : Host} {r : Except GoError Unit}
      (h : Prog.Yields workingHostSem (deleteResources cfg).run s s' r) : s'.errors = .pointer :=
    (errors_of_yields h).trans hform
  have hwhole {t : Host} (ht : t.errors = s.errors) : t.errors = .value → Whole cfg t :=
    fun hvalue => by cases (ht.symm.trans hvalue).symm.trans hform
  cases hd : s.domains.lookup cfg.domainName with
  | none =>
    obtain ⟨s', hyields, hclean, -⟩ := deleteResources_yields (hwhole rfl) hsole
      (deleteDomain_yields_of_lookup_eq_none hform hd) hd
    exact ⟨s', .ok (), s', hyields, hclean.deleteResources_yields (hkeeps hyields), hclean⟩
  | some d =>
    cases hp : d.persistent with
    | true =>
      obtain ⟨ds, hdelete, hgone⟩ := deleteDomain_yields_of_persistent hd hp
      obtain ⟨s', hyields, hclean, -⟩ := deleteResources_yields (hwhole rfl) hsole hdelete hgone
      exact ⟨s', .ok (), s', hyields, hclean.deleteResources_yields (hkeeps hyields), hclean⟩
    | false =>
      -- the first one stops the domain and fails, the second finds it gone
      have ha : d.active = true := (hstanding d hd).resolve_left (by simp [hp])
      obtain ⟨e, hdelete⟩ := deleteDomain_yields_of_transient hd hp ha
      have hgone : AList.lookup cfg.domainName (s.domains.erase cfg.domainName) = none :=
        AList.lookup_erase _ _
      obtain ⟨s', hyields, hclean, -⟩ := deleteResources_yields
        (s := { s with domains := s.domains.erase cfg.domainName }) (hwhole rfl) hsole
        (deleteDomain_yields_of_lookup_eq_none hform hgone) hgone
      exact ⟨_, .error e, s', .bind_error _ hdelete, hyields, hclean⟩

end Delete

/-! ## Any number of attempts -/

/-- **An attempt to create, to start or to delete a machine**, this one or
another with another MAC, with any call failing. Whole runs of the provider
are steps here, one after the other. -/
inductive AttemptStep (cfg : MachineConfig) : World → World → Prop where
  | createOrDelete {w w' : World} (h : MachineStep cfg w w') : AttemptStep cfg w w'
  | start {w w' : World} {cfg' : MachineConfig} {tr : List (Event ProviderSig)}
      {r : Except GoError Unit} (hcfg : NotAliased cfg cfg')
      (h : Prog.Exec providerSem (startMachine cfg').run w tr w' r) : AttemptStep cfg w w'

namespace AttemptStep

variable {cfg : MachineConfig} {w w' : World} {net : String} {host : ℕ}

/-- An attempt makes calls of the provider. -/
theorem exists_exec (h : AttemptStep cfg w w') : ∃ (p : ProviderM Unit) (tr : _) (r : _),
    Prog.Exec providerSem p.run w tr w' r := by
  cases h with
  | createOrDelete h =>
    cases h with
    | create _ he => exact ⟨_, _, _, he⟩
    | delete _ he => exact ⟨_, _, _, he⟩
  | start _ he => exact ⟨_, _, _, he⟩

theorem hostOf (h : AttemptStep cfg w w') : w'.hostOf = w.hostOf := by
  obtain ⟨p, tr, r, he⟩ := h.exists_exec
  exact he.keeps World.hostOf fun _ _ _ _ => providerSem_hostOf

theorem errors (h : AttemptStep cfg w w') (host : ℕ) :
    (w'.hosts host).errors = (w.hosts host).errors := by
  obtain ⟨p, tr, r, he⟩ := h.exists_exec
  exact he.keeps (fun w : World => (w.hosts host).errors)
    fun _ _ _ _ hs => providerSem_errors hs host

theorem standing (h : AttemptStep cfg w w') {name : String}
    (hw : (w.hosts host).domains.Standing name) : (w'.hosts host).domains.Standing name := by
  obtain ⟨p, tr, r, he⟩ := h.exists_exec
  refine he.invariant (I := fun w : World => (w.hosts host).domains.Standing name) ?_ hw
  intro w o r w' hw hs
  cases o with
  | connect c =>
    rw [(providerSem_connect hs).1]
    exact hw
  | libvirt conn o =>
    obtain ⟨s', hx, rfl⟩ := providerSem_libvirt.mp hs
    by_cases hhost : host = conn.host
    · subst hhost
      rw [World.hosts_setHost_self]
      exact hw.step hx
    · rw [World.hosts_setHost_of_ne _ hhost]
      exact hw

theorem soleOn (h : AttemptStep cfg w w') (hw : SoleOn cfg.domainName net host w) :
    SoleOn cfg.domainName net host w' := by
  cases h with
  | createOrDelete h => exact hw.step h
  | start hcfg he =>
    refine hw.connected hcfg (networksRun_of_calls ?_) he
    exact .bind_except (.adapt ⟨rfl, fun _ => trivial⟩) fun _ => .adapt ⟨rfl, fun _ => trivial⟩

end AttemptStep

/-! ## What does not come up by itself -/

/-- The calls that make something: a volume, or a domain. What was missing
before stays missing if none of them is made. -/
def LibvirtOp.makes : LibvirtOp → Bool
  | .storageVolCreateXML _ _ _ | .domainDefineXML _ => true
  | _ => false

/-- **A host has no more than it had**: no domain, no definition of one, and
no volume has come up, and it has the same networks. A deletion that was to
find something and did not will then not find it later. -/
structure Dwindles (s s' : Host) : Prop where
  domains : ∀ name, s.domains.lookup name = none → s'.domains.lookup name = none
  defined : ∀ name, s'.domains.Defined name → s.domains.Defined name
  volumes : ∀ pool name, s.storage.volume pool name = none → s'.storage.volume pool name = none
  networks : ∀ name, (s'.networks name).isSome = (s.networks name).isSome

instance : Std.Refl Dwindles where
  refl _ := ⟨fun _ => id, fun _ => id, fun _ _ => id, fun _ => rfl⟩

instance : IsTrans Host Dwindles where
  trans _ _ _ h h' := ⟨fun n hn => h'.domains n (h.domains n hn),
    fun n hn => h.defined n (h'.defined n hn),
    fun p n hn => h'.volumes p n (h.volumes p n hn),
    fun n => (h'.networks n).trans (h.networks n)⟩

section Dwindles

variable {s s' : Host} {o : LibvirtOp} {r : LibvirtSig.Ans o}

/-- A domain that is there is replaced by one that is defined only if it was. -/
theorem Dwindles.insert {name : String} {d d' : Domain} (hd : s.domains.lookup name = some d)
    (hp : d'.persistent = true → d.persistent = true) :
    Dwindles s { s with domains := s.domains.insert name d' } where
  domains n hn := by
    have hne : n ≠ name := by
      rintro rfl
      cases hd.symm.trans hn
    exact (AList.lookup_insert_ne hne).trans hn
  defined n hn := by
    obtain ⟨x, hx, hxp⟩ := hn
    by_cases hne : n = name
    · subst hne
      cases (AList.lookup_insert s.domains).symm.trans hx
      exact ⟨d, hd, hp hxp⟩
    · exact ⟨x, (AList.lookup_insert_ne hne).symm.trans hx, hxp⟩
  volumes _ _ := id
  networks _ := rfl

theorem Dwindles.erase (s : Host) (name : String) :
    Dwindles s { s with domains := s.domains.erase name } where
  domains n hn := by
    by_cases hne : n = name
    · subst hne
      exact AList.lookup_erase _ _
    · exact (AList.lookup_erase_ne hne).trans hn
  defined n hn := by
    obtain ⟨x, hx, hxp⟩ := hn
    by_cases hne : n = name
    · subst hne
      cases (AList.lookup_erase n s.domains).symm.trans hx
    · exact ⟨x, (AList.lookup_erase_ne hne).symm.trans hx, hxp⟩
  volumes _ _ := id
  networks _ := rfl

/-- The storage changes, and no volume comes up. -/
theorem libvirtSem_volume_none {pool name : String} (h : libvirtSem s o r s')
    (ho : o.makes = false) (hnone : s.storage.volume pool name = none) :
    s'.storage.volume pool name = none := by
  rcases libvirtSem_pools h with hpools | ⟨p, n, v, hedit, hpools⟩
  · rw [Storage.volume, hpools]
    exact hnone
  have hvolume : s'.storage.volume pool name = (s.storage.setVolume p n v).volume pool name := by
    rw [Storage.volume, hpools, Storage.volume]
  rw [hvolume]
  by_cases heq : pool = p ∧ name = n
  · obtain ⟨rfl, rfl⟩ := heq
    cases hedit with
    | create => cases ho
    | delete => exact s.storage.volume_setVolume_none _ _
    | upload hv => cases hnone.symm.trans hv
    | finish hv => cases hnone.symm.trans hv
  · rw [s.storage.volume_setVolume_of_ne v heq]
    exact hnone

/-- **A call that makes nothing** leaves no more than there was. This goes
through the calls once, so that a program is judged by its calls alone. -/
theorem libvirtSem_dwindles (ho : o.makes = false) (h : libvirtSem s o r s') : Dwindles s s' := by
  cases hd : o.touchesDomains with
  | false =>
    refine ⟨fun n hn => ?_, fun n hn => ?_, fun _ _ => libvirtSem_volume_none h ho, fun n => ?_⟩
    · rw [libvirtSem_domains h hd]
      exact hn
    · rw [libvirtSem_domains h hd] at hn
      exact hn
    · cases o with
      | network ref o =>
        rcases libvirtSem_network h with ⟨rfl, -⟩ | ⟨network, network', hnet, -, rfl⟩
        · rfl
        by_cases hne : n = ref.name
        · subst hne
          show (Function.update s.networks ref.name (some network') ref.name).isSome = _
          rw [Function.update_self, hnet]
          rfl
        · show (Function.update s.networks ref.name (some network') n).isSome = _
          rw [Function.update_of_ne hne]
      | _ => rw [libvirtSem_networks h rfl]
  | true =>
    cases o with
    | domainDefineXML xml => cases ho
    | setAutostart dom autostart =>
      rcases libvirtSem_setAutostart h with ⟨-, rfl⟩ | ⟨-, d, hget, -, rfl⟩
      · exact refl_of _ _
      · exact .insert (Domains.get_eq_some.mp hget).1 id
    | create dom =>
      rcases libvirtSem_create h with ⟨-, rfl⟩ | ⟨-, d, hget, -, rfl⟩
      · exact refl_of _ _
      · exact .insert (Domains.get_eq_some.mp hget).1 id
    | destroy dom =>
      rcases libvirtSem_destroy h with ⟨-, rfl⟩ | ⟨-, d, hget, -, rfl⟩
      · exact refl_of _ _
      split
      · exact .insert (Domains.get_eq_some.mp hget).1 id
      · exact .erase _ _
    | undefine dom =>
      rcases libvirtSem_undefine h with ⟨-, rfl⟩ | ⟨-, d, hget, -, rfl⟩
      · exact refl_of _ _
      split
      · exact .insert (Domains.get_eq_some.mp hget).1 nofun
      · exact .erase _ _
    | _ => cases hd

theorem dwindles_of_calls {α : Type} {p : Prog LibvirtSig α}
    (hp : p.Calls (LibvirtOp.makes · = false)) : Prog.Within libvirtSem Dwindles p :=
  hp.within fun _ _ _ _ ho hs => libvirtSem_dwindles ho hs

/-- The calls of a deletion make nothing, and they have an answer. So a
deletion always comes to an end, and never brings back what it needs. -/
theorem deleteResources_calls (cfg : MachineConfig) :
    (deleteResources cfg).run.Calls fun o : LibvirtOp =>
      o.makes = false ∧ ∀ net, o ≠ .network net .hang := by
  have hvolume (name : String) : (deleteVolume cfg.domainPool name).run.Calls
      fun o : LibvirtOp => o.makes = false ∧ ∀ net, o ≠ .network net .hang :=
    deleteVolume_calls (fun _ => ⟨rfl, nofun⟩) (fun _ _ => ⟨rfl, nofun⟩)
      (fun _ => ⟨rfl, nofun⟩) _ _
  refine .bind_except (deleteDomain_calls (fun o ho => ?_) (fun _ => ⟨rfl, nofun⟩)
      (fun _ => ⟨rfl, nofun⟩) _) fun _ => .bind_except (hvolume _) fun _ =>
    .bind_except (hvolume _) fun _ => releaseMachineReservation_calls (fun _ => ⟨rfl, nofun⟩)
      (fun net o ho => ⟨rfl, fun net' h => ?_⟩) _
  · cases o with
    | network net o => cases ho
    | _ => first | exact ⟨rfl, nofun⟩ | cases ho
  · cases h
    exact ho rfl

theorem deleteResources_dwindles (cfg : MachineConfig) :
    Prog.Within libvirtSem Dwindles (deleteResources cfg).run :=
  dwindles_of_calls ((deleteResources_calls cfg).mono fun _ ho => ho.1)

theorem startDomain_dwindles (cfg : MachineConfig) :
    Prog.Within libvirtSem Dwindles (startDomain cfg).run :=
  dwindles_of_calls (.bind_except (.adapt ⟨rfl, fun _ => trivial⟩) fun _ =>
    .adapt ⟨rfl, fun _ => trivial⟩)

/-- The whole machine is there only if it was: a deletion that follows a
deletion does not find more than the first one did. -/
theorem Whole.of_dwindles {cfg : MachineConfig} (h : Whole cfg s') (hs : Dwindles s s') :
    Whole cfg s where
  domain := hs.defined _ h.domain
  rootDisk := by
    rw [Option.isSome_iff_ne_none]
    exact fun hnone => Option.isSome_iff_ne_none.mp h.rootDisk (hs.volumes _ _ hnone)
  isoDisk := by
    rw [Option.isSome_iff_ne_none]
    exact fun hnone => Option.isSome_iff_ne_none.mp h.isoDisk (hs.volumes _ _ hnone)
  network := hs.networks _ ▸ h.network

end Dwindles

/-! ## Whether a deletion settles -/

/-- **A deletion settles**: of two in which no call fails the second returns
nil, nothing of the machine is left then, and a further one returns nil and
changes nothing. The last part is what a controller relies on that repeats a
deletion it has not seen the end of. -/
def Settles (cfg : MachineConfig) (host : ℕ) (w : World) : Prop :=
  ∃ w₁ r w₂, Prog.Yields workingProviderSem (deleteMachine cfg).run w w₁ r
    ∧ Prog.Yields workingProviderSem (deleteMachine cfg).run w₁ w₂ (.ok ())
    ∧ Clean cfg (w₂.hosts host)
    ∧ Prog.Yields workingProviderSem (deleteMachine cfg).run w₂ w₂ (.ok ())

section Settles

variable {cfg : MachineConfig} {host : ℕ} {w w' : World}

/-- When errors come as pointers, the two deletions are enough, and any
further one finds nothing and says so by returning nil. -/
theorem settles_of_pointer (hhost : w.hostOf cfg.uri = some host)
    (hform : (w.hosts host).errors = .pointer) (hsole : SoleOn cfg.domainName cfg.network host w)
    (hstanding : (w.hosts host).domains.Standing cfg.domainName) : Settles cfg host w := by
  obtain ⟨s₁, r, s₂, h₁, h₂, hclean₂⟩ := deleteResources_settles hform hsole hstanding
  have hform₂ : s₂.errors = .pointer :=
    (errors_of_yields h₂).trans ((errors_of_yields h₁).trans hform)
  have hagain {s s' : Host}
      (h : Prog.Yields workingHostSem (deleteResources cfg).run s s' (.ok ())) :
      Prog.Yields workingProviderSem (deleteMachine cfg).run (w.setHost host s) (w.setHost host s')
        (.ok ()) := by
    rw [← w.setHost_setHost host s s']
    exact connected_yields hhost (by rwa [World.hosts_setHost_self])
  exact ⟨_, r, _, connected_yields hhost h₁, hagain h₂, by rwa [World.hosts_setHost_self],
    hagain (hclean₂.deleteResources_yields hform₂)⟩

/-- **What stays missing** when errors come by value: the host has no root
disk of the machine, so that no deletion can succeed. Creating the machine
does not help, as it fails at the same lookup before a volume is made. -/
structure Stranded (cfg : MachineConfig) (host : ℕ) (w : World) : Prop where
  hostOf : w.hostOf cfg.uri = some host
  form : (w.hosts host).errors = .value
  rootDisk : (w.hosts host).storage.volume cfg.domainPool cfg.domainDiskName = none

/-- A run of the provider keeps it, if it makes no volume. -/
theorem Stranded.connected {α : Type} {cfg' : MachineConfig} {p : LibvirtM α}
    {tr : List (Event ProviderSig)} {r : Except GoError α} (h : Stranded cfg host w)
    (hp : ∀ s tr s' r, s.errors = .value → Prog.Exec libvirtSem p.run s tr s' r →
      ∀ pool name, s.storage.volume pool name = none → s'.storage.volume pool name = none)
    (he : Prog.Exec providerSem (connected cfg' p).run w tr w' r) : Stranded cfg host w' := by
  rcases connected_exec he with ⟨-, rfl, -⟩ | ⟨host', tr', s', -, hx, -, rfl⟩
  · exact h
  by_cases hhost : host = host'
  · subst hhost
    refine ⟨h.hostOf, ?_, ?_⟩
    · rw [World.hosts_setHost_self, exec_errors hx, h.form]
    · rw [World.hosts_setHost_self]
      exact hp _ _ _ _ h.form hx _ _ h.rootDisk
  · refine ⟨h.hostOf, ?_, ?_⟩
    · rw [World.hosts_setHost_of_ne _ hhost, h.form]
    · rw [World.hosts_setHost_of_ne _ hhost, h.rootDisk]

/-- **No attempt makes up for it**: neither one for this machine, nor one for
another. When errors come by value no creation gets as far as making a volume
that is not there. -/
theorem Stranded.step (h : Stranded cfg host w) (hs : AttemptStep cfg w w') :
    Stranded cfg host w' := by
  cases hs with
  | createOrDelete hs =>
    cases hs with
    | create _ he =>
      refine h.connected (fun s tr s' r hform hx pool name hnone => ?_) he
      rcases createDomain_value hform hx with ⟨-, rfl, -⟩ | ⟨hstorage, -⟩
      · exact hnone
      · rw [hstorage, hnone]
    | delete _ he =>
      exact h.connected (fun s tr s' r _ hx => (deleteResources_dwindles _ _ _ _ _ hx).volumes) he
  | start _ he =>
    exact h.connected (fun s tr s' r _ hx => (startDomain_dwindles _ _ _ _ _ hx).volumes) he

/-- **Every deletion fails**, whatever its calls answer: the root disk has to
be found on the way to nil. -/
theorem Stranded.deleteMachine_fails (h : Stranded cfg host w) {tr : List (Event ProviderSig)}
    {r : Except GoError Unit} (he : Prog.Exec providerSem (deleteMachine cfg).run w tr w' r) :
    ∃ e, r = .error e := by
  cases r with
  | error e => exact ⟨e, rfl⟩
  | ok _ =>
    rcases connected_exec he with ⟨⟨_, hr⟩, -⟩ | ⟨host', tr', s', hhost, hx, -, -⟩
    · cases hr
    cases h.hostOf.symm.trans hhost
    have := (deleteResources_whole h.form hx).rootDisk
    rw [h.rootDisk] at this
    cases this

theorem Stranded.not_settles (h : Stranded cfg host w) : ¬ Settles cfg host w := by
  rintro ⟨w₁, r, w₂, h₁, h₂, -⟩
  have hexec {w w' : World} {r : Except GoError Unit}
      (h : Prog.Yields workingProviderSem (deleteMachine cfg).run w w' r) :
      ∃ tr, Prog.Exec providerSem (deleteMachine cfg).run w tr w' r := by
    obtain ⟨tr, he⟩ := h.run
    refine ⟨tr, he.map (g := id) ?_⟩
    rintro _ _ _ _ ⟨c, -, hc⟩
    exact ⟨c, hc⟩
  obtain ⟨_, he₁⟩ := hexec h₁
  obtain ⟨_, he₂⟩ := hexec h₂
  have hstep : AttemptStep cfg w w₁ := .createOrDelete (.delete (Or.inl rfl) he₁)
  obtain ⟨e, he⟩ := (h.step hstep).deleteMachine_fails he₂
  cases he

end Settles

/-- **Whether a deletion wedges is a matter of the form of the errors.** Start
from hosts where nothing of the machine is on its host, and let any number of
attempts to create, to start and to delete it and machines with other MACs
pass, whichever calls fail. From the state reached a deletion settles exactly
when libvirt's errors reach the code as `*libvirt.Error`. With the binding as it
is they do not, and then no deletion settles, from no such state. -/
theorem deleteMachine_settles_iff {cfg : MachineConfig} {host : ℕ} {w₀ w : World}
    (hhost : w₀.hostOf cfg.uri = some host) (hclean : Clean cfg (w₀.hosts host))
    (hrun : Relation.ReflTransGen (AttemptStep cfg) w₀ w) :
    Settles cfg host w ↔ (w₀.hosts host).errors = .pointer := by
  cases hform : (w₀.hosts host).errors with
  | value =>
    have hstranded : Stranded cfg host w := by
      induction hrun with
      | refl => exact ⟨hhost, hform, hclean.rootDisk⟩
      | tail _ hs ih => exact ih.step hs
    exact iff_of_false hstranded.not_settles nofun
  | pointer =>
    have hinv : w.hostOf cfg.uri = some host ∧ (w.hosts host).errors = .pointer
        ∧ SoleOn cfg.domainName cfg.network host w
        ∧ (w.hosts host).domains.Standing cfg.domainName := by
      induction hrun with
      | refl =>
        refine ⟨hhost, hform, fun network hnet => .of_none (hclean.entry network hnet),
          fun d hd => ?_⟩
        cases hclean.domain.symm.trans hd
      | tail _ hs ih =>
        exact ⟨hs.hostOf ▸ ih.1, (hs.errors host).trans ih.2.1, hs.soleOn ih.2.2.1,
          hs.standing ih.2.2.2⟩
    exact iff_of_true (settles_of_pointer hinv.1 hinv.2.1 hinv.2.2.1 hinv.2.2.2) rfl
/-- A machine was created, and a deletion undefined its domain and left it
running; errors come as pointers. This is where one deletion is too few. -/
theorem deleteMachine_settles_running : ∃ w,
    Relation.ReflTransGen (AttemptStep nodeConfig) pointerWorld w
    ∧ domainState w = some (true, false) ∧ Settles nodeConfig 0 w := by
  have hrun : (createThenDelete pointerWorld [faultless, faultless, { fault := some 38 }]).map
      (fun x => domainState x.2.2.1) = some (some (true, false)) := by
    decide +kernel
  obtain ⟨⟨w, tr, w', r⟩, hx, hstate⟩ := Option.map_eq_some_iff.mp hrun
  obtain ⟨hcreate, he⟩ := createThenDelete_exec hx
  have hattempts : Relation.ReflTransGen (AttemptStep nodeConfig) pointerWorld w' :=
    (hcreate.lift id fun _ _ => AttemptStep.createOrDelete).tail
      (.createOrDelete (.delete (Or.inl rfl) he))
  exact ⟨w', hattempts, hstate,
    (deleteMachine_settles_iff rfl (clean_freshHost _) hattempts).mpr rfl⟩

/-- **A deletion wedges.** Nothing of the machine is on its host and no call
fails; every deletion ends with the error of the lookup of the domain, and
nothing has changed. -/
theorem deleteMachine_wedges :
    Clean nodeConfig (freshWorld.hosts 0)
    ∧ Prog.Yields workingProviderSem (deleteMachine nodeConfig).run freshWorld freshWorld
      (.error (.wrap "lookup domain default-node-1" (.libvirt .noDomain)))
    ∧ ¬ Settles nodeConfig 0 freshWorld := by
  have hyields : Prog.Yields workingHostSem (deleteResources nodeConfig).run freshHost freshHost
      (.error (.wrap "lookup domain default-node-1" (.libvirt .noDomain))) :=
    .bind_error _ (deleteDomain_yields_of_value (s := freshHost) rfl rfl)
  have hworld : freshWorld.setHost 0 freshHost = freshWorld := freshWorld.setHost_hosts 0
  refine ⟨clean_freshHost .value, ?_, Stranded.not_settles ⟨rfl, rfl, rfl⟩⟩
  have hdelete : Prog.Yields workingProviderSem (deleteMachine nodeConfig).run freshWorld
      (freshWorld.setHost 0 freshHost) _ := connected_yields rfl hyields
  rwa [hworld] at hdelete

end LibvirtProvider

import LibvirtProvider.Allocation

/-!
# Reserving, releasing and reserving again

Two relations between the calls for one machine. Reserving again finds the
entry that is there: the probes of the second call come to the candidate they
came to before, since every candidate probed earlier is still held and no
neighbour can have taken the machine's own (`reserve_again`).

Releasing undoes reserving, with one exception. A reservation looks at an
entry's MAC and address and keeps an entry that has both, whatever its name;
a release asks libvirt to delete an entry with the machine's name. Where the
two disagree the entry can be reserved but not released
(`release_undoes_iff`).
-/

namespace LibvirtProvider

open Interaction

section Reserve

variable {network network' : Network} {netName domainName mac ip : String}
  {tr : List (Event NetworkSig)}

/-- What is reserved is the first vacant candidate. -/
theorem reserveMachineIP_firstVacant
    (h : Prog.Exec networkSem (reserveMachineIP netName domainName mac).run network tr
      network' (.ok ip)) :
    ∃ candidates c, (allocationCandidates network).run = some (.ok candidates)
      ∧ FirstVacant network.hosts candidates domainName mac c ∧ ip = formatIPv4 c := by
  rcases reserveMachineIP_plan h with ⟨⟨_, hr⟩, -⟩ | ⟨plan, hplan, hr, -⟩
  · cases hr
  cases hr
  have halloc := planHostUpdate_alloc hplan
  obtain ⟨candidates, hcand, -⟩ := allocateMachineIPIn_spec halloc
  obtain ⟨c, hfirst, hip⟩ := (allocateMachineIPIn_ok_iff hcand).mp halloc
  exact ⟨candidates, c, hcand, hfirst, hip⟩

end Reserve

/-! ## Calls that do not fail -/

/-- What the calls on a network mean when none of them fails. An update that
libvirt refuses is refused still, so that an operation can fail also where
every call works; that is what the results here are about. -/
def workingSem : Sem NetworkSig Network := fun network o r network' =>
  ∃ c : NetworkChoice, c.fault = none ∧ networkStep network o c = some (r, network')

section Working

variable {network network' : Network} {netName domainName mac : String}

theorem networkXML_yields (network : Network) :
    Prog.Yields workingSem networkXML.run network network (.ok network) := by
  have hread : Prog.Yields workingSem (Prog.perform (σ := NetworkSig) (.getXMLDesc 0)) network
      network (.ok (.doc network)) := by
    refine .perform ⟨{}, rfl, rfl⟩ ?_
    rintro r n ⟨c, hc, hs⟩
    simp only [networkStep, hc] at hs
    cases hs
    exact ⟨rfl, rfl⟩
  exact .bind_ok (Prog.Yields.adapt _ (x := ExceptT.mk _) hread) (.done _)

/-- An update goes through or is refused, as libvirt decides. -/
theorem updateHost_yields (f : GoError → GoError) (cmd : NetworkUpdateCommand)
    (host : NetworkDHCPHost) (network : Network) :
    match network.update cmd 0 host with
    | some network' => Prog.Yields workingSem (ExceptT.adapt f (updateHost cmd host)).run network
        network' (.ok ())
    | none => Prog.Yields workingSem (ExceptT.adapt f (updateHost cmd host)).run network network
        (.error (f (.libvirt (.other 55)))) := by
  cases hu : network.update cmd 0 host with
  | none =>
    refine Prog.Yields.adapt f (x := updateHost cmd host) (b := .error _)
      (.perform ⟨{}, rfl, ?_⟩ ?_)
    · simp only [networkStep, hu]
    · rintro r n ⟨c, hc, hs⟩
      simp only [networkStep, hc, hu] at hs
      cases hs
      exact ⟨rfl, rfl⟩
  | some network' =>
    refine Prog.Yields.adapt f (x := updateHost cmd host) (b := .ok ()) (.perform ⟨{}, rfl, ?_⟩ ?_)
    · simp only [networkStep, hu]
    · rintro r n ⟨c, hc, hs⟩
      simp only [networkStep, hc, hu] at hs
      cases hs
      exact ⟨rfl, rfl⟩

/-- Releasing an entry: it succeeds when libvirt finds the entry under the
machine's name, and is an error otherwise. -/
theorem releaseMachineIP_yields (netName domainName : String) {e : NetworkDHCPHost}
    (he : hostEntryInNetwork network mac = some e) :
    match network.update .delete 0 ⟨mac, domainName, e.ip⟩ with
    | some network' => Prog.Yields workingSem (releaseMachineIP netName domainName mac).run network
        network' (.ok ())
    | none => Prog.Yields workingSem (releaseMachineIP netName domainName mac).run network network
        (.error (.wrap s!"remove DHCP host entry for {domainName} on network {netName}"
          (.libvirt (.other 55)))) := by
  have h := updateHost_yields
    (.wrap s!"remove DHCP host entry for {domainName} on network {netName}") .delete
    ⟨mac, domainName, e.ip⟩ network
  split at h
  · exact .bind_ok (networkXML_yields network) (by rw [he]; exact h)
  · exact .bind_ok (networkXML_yields network) (by rw [he]; exact h)

end Working

/-! ## Release after reserve -/

/-- An entry is deleted exactly when it is in the first `<ip>` element. -/
theorem Network.exists_update_delete {network : Network} (host : NetworkDHCPHost) :
    (∃ network', network.update .delete 0 host = some network')
      ↔ ∃ e ∈ network.firstHosts, foldKey e.mac = foldKey host.mac ∧ e.name = host.name
        ∧ e.ip = host.ip := by
  have hany : network.firstHosts.any (sameEntry host) = true ↔ ∃ e ∈ network.firstHosts,
      foldKey e.mac = foldKey host.mac ∧ e.name = host.name ∧ e.ip = host.ip := by
    rw [List.any_eq_true]
    simp [sameEntry, and_assoc]
  rw [← hany, Network.update, Network.firstHosts]
  cases network.ips with
  | nil => simp
  | cons ip rest => by_cases h : ip.hosts.any (sameEntry host) = true <;> simp [updateHosts, h]

/-- In a network with one `<ip>` element an entry is deleted exactly when it
is there. -/
theorem Network.update_delete_iff {network : Network} {ip : NetworkIP} (hone : network.ips = [ip])
    (host : NetworkDHCPHost) :
    (∃ network', network.update .delete 0 host = some network')
      ↔ ∃ e ∈ network.hosts, foldKey e.mac = foldKey host.mac ∧ e.name = host.name
        ∧ e.ip = host.ip := by
  have hhosts : network.hosts = network.firstHosts := by
    rw [Network.hosts, Network.firstHosts, hone, List.flatMap_singleton]
  rw [Network.exists_update_delete, hhosts]

/-- No update changes the number of elements. -/
theorem Network.length_update {network network' : Network} {cmd : NetworkUpdateCommand}
    {i : ℕ} {host : NetworkDHCPHost} (h : network.update cmd i host = some network') :
    network'.ips.length = network.ips.length := by
  unfold Network.update at h
  split at h
  · cases h
  · obtain ⟨hosts, -, rfl⟩ := Option.map_eq_some_iff.mp h
    exact List.length_set

/-- **Releasing a machine's address undoes reserving it**: when no call fails
the release after a successful reservation succeeds, no entry of the MAC is
left, and those of other MACs are as they were before. -/
def ReleaseUndoes (network : Network) (domainName : String) : Prop :=
  ∀ netName tr network₁ ip,
    Prog.Exec networkSem
      (reserveMachineIP netName domainName (deriveDomainMAC domainName)).run network tr network₁
      (.ok ip) →
    ∃ network₂, Prog.Yields workingSem
        (releaseMachineIP netName domainName (deriveDomainMAC domainName)).run network₁ network₂
        (.ok ())
      ∧ (∀ e ∈ network₂.hosts, foldKey e.mac ≠ foldKey (deriveDomainMAC domainName))
      ∧ network₂.hosts.filter (fun e => !equalFold e.mac (deriveDomainMAC domainName))
        = network.hosts.filter (fun e => !equalFold e.mac (deriveDomainMAC domainName))

/-- **An entry of the machine's MAC stands in its way**: it is under another
name, and it binds the first candidate of the machine's probe order that is
not bound to another MAC. -/
def Misnamed (network : Network) (domainName : String) : Prop :=
  ∃ e ∈ network.hosts, foldKey e.mac = foldKey (deriveDomainMAC domainName) ∧ e.name ≠ domainName
    ∧ ∃ candidates c, (allocationCandidates network).run = some (.ok candidates)
      ∧ FirstVacant network.hosts candidates domainName (deriveDomainMAC domainName) c
      ∧ e.ip = formatIPv4 c

section Undo

variable {network : Network} {ip : NetworkIP} {domainName : String}

/-- Removing the entry of a MAC leaves the others. -/
theorem Replaces.delete {mac : String} {before pre mid post : List NetworkDHCPHost}
    {e host : NetworkDHCPHost} {network₁ network₂ : Network}
    (h : Replaces mac before network₁.hosts pre mid post e) (hap : network₁.hosts.Pairwise Apart)
    (hmac : foldKey host.mac = foldKey mac)
    (hu : network₁.update .delete 0 host = some network₂) : network₂.hosts = pre ++ post := by
  obtain ⟨pre', a, post', hhosts, hhosts', ha, -⟩ := Network.update_delete hu
  have hrep := Replaces.of_mem hap hhosts (ha.trans hmac) (ha.trans hmac) hhosts
  have hrep' := Replaces.of_mem hap h.after_eq h.mac_eq h.mac_eq h.after_eq
  rw [hhosts', ← hrep.filter_eq, hrep'.filter_eq]

/-- **Release undoes reserve** exactly when no entry of the machine's MAC
under another name binds the address that the machine is given. Such an entry
is kept by the reservation, which does not look at names, and refused by
libvirt at the release, which gives the machine's. -/
theorem release_undoes_iff (hone : network.ips = [ip]) (hap : network.hosts.Pairwise Apart)
    (hname : ∀ e ∈ network.hosts, e.name = domainName →
      foldKey e.mac = foldKey (deriveDomainMAC domainName)) :
    ReleaseUndoes network domainName ↔ ¬ Misnamed network domainName := by
  constructor
  · rintro h ⟨e, hmem, hmac, hne, candidates, c, hcand, hfirst, hip⟩
    have hfound := hostEntryInNetwork_of_mem hap hmem hmac
    have halloc := (allocateMachineIPIn_ok_iff hcand).mpr ⟨c, hfirst, rfl⟩
    obtain ⟨tr, hres⟩ := exists_reserveMachineIP_exec "default"
      (planHostUpdate_kept halloc hfound hip) rfl
    obtain ⟨network₂, hyields, -⟩ := h _ _ _ _ hres
    -- the entry is the only one of the MAC, and libvirt does not find it by the name
    have hu : network.update .delete 0 ⟨deriveDomainMAC domainName, domainName, e.ip⟩ = none := by
      rw [Option.eq_none_iff_forall_ne_some]
      intro n hn
      obtain ⟨f, hf, hfmac, hfname, -⟩ := (Network.update_delete_iff hone _).mp ⟨n, hn⟩
      exact hne (eq_of_mac_eq hap hf hmem (hfmac.trans hmac.symm) ▸ hfname)
    have hrefused := releaseMachineIP_yields "default" domainName hfound
    rw [hu] at hrefused
    obtain ⟨tr', hrun⟩ := hyields.run
    cases (hrefused.only _ _ _ hrun).2
  · intro hno netName tr network₁ addr hres
    obtain ⟨pre, mid, post, e, hrep, heip, -, hcases⟩ := reserveMachineIP_replaces hap hname hres
    have hap₁ := reserveMachineIP_apart hap hname hres
    -- the entry left by the reservation is under the machine's name
    have hename : e.name = domainName := by
      rcases hcases with ⟨hmid, rfl⟩ | rfl
      · by_contra hne
        obtain ⟨candidates, c, hcand, hfirst, hc⟩ := reserveMachineIP_firstVacant hres
        exact hno ⟨e, hrep.mem_after.mpr (Or.inl rfl), hrep.mac_eq, hne, candidates, c, hcand,
          hfirst, heip.trans hc⟩
      · rfl
    have hemem : e ∈ network₁.hosts := hrep.mem_after.mpr (Or.inl rfl)
    have hfound := hostEntryInNetwork_of_mem hap₁ hemem hrep.mac_eq
    obtain ⟨ip₁, hone₁⟩ : ∃ ip₁, network₁.ips = [ip₁] := by
      rw [← List.length_eq_one_iff]
      have hlen : network.ips.length = 1 := by rw [hone, List.length_singleton]
      rcases reserveMachineIP_plan hres with ⟨-, rfl⟩ | ⟨plan, -, -, hu⟩
      · exact hlen
      · split at hu
        · rw [hu, hlen]
        · rw [Network.length_update hu, hlen]
    obtain ⟨network₂, hu⟩ := (Network.update_delete_iff hone₁
      ⟨deriveDomainMAC domainName, domainName, e.ip⟩).mpr ⟨e, hemem, hrep.mac_eq, hename, rfl⟩
    have hyields := releaseMachineIP_yields netName domainName hfound
    rw [hu] at hyields
    have hhosts₂ := hrep.delete hap₁ (by rfl) hu
    refine ⟨network₂, hyields, ?_, ?_⟩
    · rw [hhosts₂]
      exact hrep.others
    · rw [hhosts₂, hrep.filter_eq, List.filter_eq_self]
      intro f hf
      rw [Bool.not_eq_true', equalFold_eq_false]
      exact hrep.others f hf

end Undo

theorem release_undoes_moved :
    ReleaseUndoes (oneAddressNetwork
      [⟨deriveDomainMAC "default-node-1", "old-node", "192.168.122.9"⟩]) "default-node-1" := by
  let old : NetworkDHCPHost := ⟨deriveDomainMAC "default-node-1", "old-node", "192.168.122.9"⟩
  have hhosts : (oneAddressNetwork [old]).hosts = [old] := hosts_rangeNetwork _ _
  have hone : ∃ ip, (oneAddressNetwork [old]).ips = [ip] := ⟨_, rfl⟩
  have hmisnamed : ¬ Misnamed (oneAddressNetwork [old]) "default-node-1" := by
    rintro ⟨e, he, -, -, candidates, c, hcand, ⟨pre, post, horder, -⟩, hip⟩
    rw [allocationCandidates_oneAddressNetwork] at hcand
    cases hcand
    have hc : c ∈ probeOrder [0xC0A87A02] "default-node-1" := by
      rw [horder]
      simp
    obtain rfl : c = 0xC0A87A02 := by simpa using (mem_probeOrder _).mp hc
    rw [hhosts] at he
    rw [List.mem_singleton.mp he] at hip
    revert hip
    decide +kernel
  obtain ⟨ip, hip⟩ := hone
  refine (release_undoes_iff hip ?_ ?_).mpr hmisnamed
  · rw [hhosts]
    exact List.pairwise_singleton _ _
  · rw [hhosts]
    intro e he _
    rw [List.mem_singleton.mp he]

/-- The machine's MAC has an entry with the right address and an old name.
Reserving changes nothing; releasing is refused, now and every time it is
tried again. -/
theorem release_refused_old_name :
    ¬ ReleaseUndoes (oneAddressNetwork
      [⟨deriveDomainMAC "default-node-1", "old-node", "192.168.122.2"⟩]) "default-node-1" := by
  let network := oneAddressNetwork
    [⟨deriveDomainMAC "default-node-1", "old-node", "192.168.122.2"⟩]
  have hend : (Prog.runWith networkStep {}
      (reserveMachineIP "default" "default-node-1" (deriveDomainMAC "default-node-1")).run
      network []).map Prod.snd = some (network, .ok "192.168.122.2") := by decide +kernel
  obtain ⟨tr, hres⟩ := Prog.exists_exec_of_runWith hend
  have hfound : hostEntryInNetwork network (deriveDomainMAC "default-node-1")
      = some ⟨deriveDomainMAC "default-node-1", "old-node", "192.168.122.2"⟩ := by decide +kernel
  have hrefused := releaseMachineIP_yields "default" "default-node-1" hfound
  have hu : network.update .delete 0
      ⟨deriveDomainMAC "default-node-1", "default-node-1", "192.168.122.2"⟩ = none := by
    decide +kernel
  rw [hu] at hrefused
  intro h
  obtain ⟨network₂, hyields, -⟩ := h _ _ _ _ hres
  obtain ⟨tr', hrun⟩ := hyields.run
  cases (hrefused.only _ _ _ hrun).2

/-! ## Reserving again -/

section Again

variable {network network' network₁ network₂ : Network} {netName a x : String}
  {tr : List (Event NetworkSig)} {newcomers : Set String}

/-- Where the entries are apart, an address that is bound is vacant for the
MAC it is bound to. -/
theorem vacant_iff_of_mem {hosts : List NetworkDHCPHost} (hap : hosts.Pairwise Apart)
    {f : NetworkDHCPHost} (hf : f ∈ hosts) {mac : String} :
    Vacant hosts mac f.ip ↔ foldKey f.mac = foldKey mac := by
  obtain ⟨g, hg⟩ := exists_lastOwner hf rfl
  obtain ⟨hgmem, hgip⟩ := mem_of_lastOwner hg
  have hgf : g = f := by
    by_contra hne
    exact (hap.forall hgmem hf hne).2.2 hgip
  subst hgf
  constructor
  · exact fun h => h g hg
  · intro h e he
    rw [hg] at he
    cases he
    exact h

/-- A reservation leaves an entry of another MAC. -/
theorem mem_hosts_reserve {machines : Set String} (hacc : Accounted machines network)
    {domainName : String} (hd : domainName ∈ machines) {r : Except GoError String}
    (h : Prog.Exec networkSem
      (reserveMachineIP netName domainName (deriveDomainMAC domainName)).run network tr network' r)
    {e : NetworkDHCPHost} (he : e ∈ network.hosts)
    (hmac : foldKey e.mac ≠ foldKey (deriveDomainMAC domainName)) : e ∈ network'.hosts := by
  cases r with
  | error err =>
    rcases reserveMachineIP_exec h with ⟨-, rfl⟩ | ⟨_, hr, -⟩
    · exact he
    · cases hr
  | ok ip =>
    obtain ⟨pre, mid, post, _, hrep, -⟩ := reserveMachineIP_replaces hacc.apart
      (fun f hf hfd => hfd ▸ hacc.mac_of_name f hf (hfd ▸ hd)) h
    exact hrep.mem_after.mpr (Or.inr (hrep.mem_others he hmac))

/-- So does a release. -/
theorem mem_hosts_release {domainName mac : String} {r : Except GoError Unit}
    (h : Prog.Exec networkSem (releaseMachineIP netName domainName mac).run network tr network' r)
    {e : NetworkDHCPHost} (he : e ∈ network.hosts) (hmac : foldKey e.mac ≠ foldKey mac) :
    e ∈ network'.hosts := by
  rcases releaseMachineIP_exec h with ⟨-, rfl⟩ | ⟨-, -, rfl⟩ | ⟨-, f, -, hu⟩
  · exact he
  · exact he
  · obtain ⟨pre, g, post, hhosts, hhosts', hg, -⟩ := Network.update_delete hu
    rw [hhosts, List.mem_append, List.mem_cons] at he
    rw [hhosts', List.mem_append]
    rcases he with he | rfl | he
    · exact Or.inl he
    · exact absurd hg hmac
    · exact Or.inr he

/-- **Calls for newcomers leave the entries that are there.** A newcomer's
call finds entries by the newcomer's MAC, and there is none of those among
them. -/
theorem mem_hosts_run (hacc : Accounted newcomers network₁)
    (hrun : ReservationRun newcomers network₁ network₂) {e : NetworkDHCPHost}
    (he : e ∈ network₁.hosts)
    (hmac : ∀ b ∈ newcomers, foldKey e.mac ≠ foldKey (deriveDomainMAC b)) :
    e ∈ network₂.hosts := by
  induction hrun with
  | refl => exact he
  | tail hrun hs ih =>
    cases hs with
    | reserve hd h => exact mem_hosts_reserve (hacc.run hrun) hd h ih (hmac _ hd)
    | release hd h => exact mem_hosts_release h ih (hmac _ hd)

theorem allocationCandidates_run {machines : Set String}
    (hrun : ReservationRun machines network₁ network₂) :
    allocationCandidates network₂ = allocationCandidates network₁ := by
  induction hrun with
  | refl => rfl
  | tail _ hs ih =>
    cases hs with
    | reserve hd h => rw [allocationCandidates_reserve h, ih]
    | release hd h =>
      rcases releaseMachineIP_exec h with ⟨-, rfl⟩ | ⟨-, -, rfl⟩ | ⟨-, f, -, hu⟩
      · exact ih
      · exact ih
      · rw [Network.allocationCandidates_update hu, ih]

/-- **Reserving again**, with the entry in place: nothing is updated and the
address is the same. The only calls are readings. -/
theorem reserveMachineIP_kept {domainName mac : String} {c : UInt32}
    (hplan : (planHostUpdate network domainName mac).run = some (.ok ⟨formatIPv4 c, none⟩)) :
    Prog.Yields workingSem (reserveMachineIP netName domainName mac).run network network
      (.ok (formatIPv4 c))
    ∧ ∀ tr network' r, Prog.Exec networkSem (reserveMachineIP netName domainName mac).run network
        tr network' r → ∀ ev ∈ tr, ev.1 = NetworkOp.getXMLDesc 0 := by
  have hcomp : (NetworkM.ofComp (planHostUpdate network domainName mac)).run
      = Prog.done (.ok ⟨formatIPv4 c, none⟩) := by
    rw [NetworkM.ofComp, hplan]
    rfl
  have hcomp' : Prog.Yields workingSem
      (NetworkM.ofComp (planHostUpdate network domainName mac)).run network network
      (.ok ⟨formatIPv4 c, none⟩) := by
    rw [hcomp]
    exact .done _
  refine ⟨.bind_ok (networkXML_yields network) (.bind_ok hcomp' (.done _)), ?_⟩
  · intro tr network' r h ev hev
    rcases Prog.exec_bind_except.mp h with ⟨e, hx, -⟩ | ⟨n, s₁, tr₁, tr₂, rfl, hx, hf⟩
    · exact networkXML_calls.of_mem hx hev
    · obtain ⟨rfl, ⟨_, he⟩ | hn⟩ := networkXML_exec hx
      · cases he
      cases hn
      have hnil : tr₂ = [] := by
        rcases Prog.exec_bind_except.mp hf with ⟨e, hp, -⟩ | ⟨plan, s₂, tr₃, tr₄, rfl, hp, hu⟩
        · rw [hcomp] at hp
          cases hp.2.2
        · rw [hcomp] at hp
          obtain ⟨rfl, -, hplan⟩ := hp
          cases hplan
          exact hu.1
      rw [hnil, List.append_nil] at hev
      exact networkXML_calls.of_mem hx hev

/-- **Reserve is idempotent and stable under new neighbours.** The entries are
apart and one under a machine's name has the machine's MAC. After `a` has
reserved an address, any sequence of calls for newcomers – machines with
other MACs that had no entry – leaves it so that reserving for `a` again
makes no update and returns the same address. -/
theorem reserve_again
    (hap : network.hosts.Pairwise Apart)
    (hnames : ∀ e ∈ network.hosts, e.name = a ∨ e.name ∈ newcomers →
      foldKey e.mac = foldKey (deriveDomainMAC e.name))
    (hnew : ∀ b ∈ newcomers, deriveDomainMAC b ≠ deriveDomainMAC a
      ∧ ∀ e ∈ network.hosts, foldKey e.mac ≠ foldKey (deriveDomainMAC b))
    (ha : Prog.Exec networkSem (reserveMachineIP netName a (deriveDomainMAC a)).run network tr
      network₁ (.ok x))
    (hrun : ReservationRun newcomers network₁ network₂) :
    Prog.Yields workingSem (reserveMachineIP netName a (deriveDomainMAC a)).run network₂ network₂
      (.ok x)
    ∧ ∀ tr network' r, Prog.Exec networkSem
        (reserveMachineIP netName a (deriveDomainMAC a)).run network₂ tr network' r →
        ∀ ev ∈ tr, ev.1 = NetworkOp.getXMLDesc 0 := by
  have hname : ∀ e ∈ network.hosts, e.name = a → foldKey e.mac = foldKey (deriveDomainMAC a) :=
    fun e he hea => hea ▸ hnames e he (Or.inl hea)
  obtain ⟨pre, mid, post, e, hrep, rfl, -, hcases⟩ := reserveMachineIP_replaces hap hname ha
  obtain ⟨candidates, c, hcand, ⟨probed, left, horder, hprobed, hvac⟩, hc⟩ :=
    reserveMachineIP_firstVacant ha
  -- no entry after the reservation is a newcomer's
  have hold : ∀ f ∈ network₁.hosts, ∀ b ∈ newcomers,
      foldKey f.mac ≠ foldKey (deriveDomainMAC b) := by
    intro f hf b hb
    rcases hrep.mem_after.mp hf with rfl | hf
    · rw [hrep.mac_eq]
      exact fun h => (hnew b hb).1 (deriveDomainMAC_eq_of_foldKey_eq h).symm
    · exact (hnew b hb).2 f (hrep.mem_before hf)
  have hacc : Accounted newcomers network₁ := by
    have hnone : ∀ f ∈ network₁.hosts, f.name ∉ newcomers := by
      intro f hf hfn
      rcases hcases with ⟨-, rfl⟩ | he
      · exact (hnew _ hfn).2 f hf (hnames f hf (Or.inr hfn))
      · rcases hrep.mem_after.mp hf with rfl | hf
        · rw [he] at hfn
          exact (hnew a hfn).1 rfl
        · have hf := hrep.mem_before hf
          exact (hnew _ hfn).2 f hf (hnames f hf (Or.inr hfn))
    exact ⟨reserveMachineIP_apart hap hname ha, fun f hf hfn => absurd hfn (hnone f hf),
      fun f hf => hnone f (Network.mem_hosts.mpr (Or.inr hf))⟩
  have hkeeps : ∀ f ∈ network₁.hosts, f ∈ network₂.hosts :=
    fun f hf => mem_hosts_run hacc hrun hf (hold f hf)
  have hap₂ := (hacc.run hrun).apart
  have he₂ : e ∈ network₂.hosts := hkeeps e (hrep.mem_after.mpr (Or.inl rfl))
  -- every candidate probed before is held by the entry that held it
  have hfirst₂ : FirstVacant network₂.hosts candidates a (deriveDomainMAC a) c := by
    refine ⟨probed, left, horder, fun y hy hvac₂ => hprobed y hy fun f hf => ?_, ?_⟩
    · obtain ⟨hfmem, hfip⟩ := mem_of_lastOwner hf
      by_contra hfmac
      have hf₁ : f ∈ network₁.hosts := hrep.mem_after.mpr (Or.inr (hrep.mem_others hfmem hfmac))
      rw [← hfip, vacant_iff_of_mem hap₂ (hkeeps f hf₁)] at hvac₂
      exact hfmac hvac₂
    · rw [← hc]
      exact (vacant_iff_of_mem hap₂ he₂).mpr hrep.mac_eq
  have hcand₂ : (allocationCandidates network₂).run = some (.ok candidates) := by
    rw [allocationCandidates_run hrun, allocationCandidates_reserve ha, hcand]
  have hfound₂ := hostEntryInNetwork_of_mem hap₂ he₂ hrep.mac_eq
  have hplan := planHostUpdate_kept ((allocateMachineIPIn_ok_iff hcand₂).mpr ⟨c, hfirst₂, rfl⟩)
    hfound₂ hc
  rw [hc]
  exact reserveMachineIP_kept hplan

theorem reserve_again_two_nodes :
    ∃ network₂ : Network, network₂.hosts.length = 2
      ∧ Prog.Yields workingSem
        (reserveMachineIP "default" "default-node-1" (deriveDomainMAC "default-node-1")).run
        network₂ network₂ (.ok "192.168.122.3") := by
  let node₁ : NetworkDHCPHost :=
    ⟨deriveDomainMAC "default-node-1", "default-node-1", "192.168.122.3"⟩
  let node₂ : NetworkDHCPHost :=
    ⟨deriveDomainMAC "default-node-2", "default-node-2", "192.168.122.2"⟩
  have hend₁ : (Prog.runWith networkStep {}
      (reserveMachineIP "default" "default-node-1" (deriveDomainMAC "default-node-1")).run
      (rangeNetwork "192.168.122.3" []) []).map Prod.snd
      = some (rangeNetwork "192.168.122.3" [node₁], .ok "192.168.122.3") := by decide +kernel
  have hend₂ : (Prog.runWith networkStep {}
      (reserveMachineIP "default" "default-node-2" (deriveDomainMAC "default-node-2")).run
      (rangeNetwork "192.168.122.3" [node₁]) []).map Prod.snd
      = some (rangeNetwork "192.168.122.3" [node₁, node₂], .ok "192.168.122.2") := by
    decide +kernel
  obtain ⟨tr₁, h₁⟩ := Prog.exists_exec_of_runWith hend₁
  obtain ⟨tr₂, h₂⟩ := Prog.exists_exec_of_runWith hend₂
  have hrun : ReservationRun {"default-node-2"} (rangeNetwork "192.168.122.3" [node₁])
      (rangeNetwork "192.168.122.3" [node₁, node₂]) :=
    .single (.reserve (Set.mem_singleton _) h₂)
  refine ⟨_, by simp, (reserve_again ?_ ?_ ?_ h₁ hrun).1⟩
  · simp
  · simp
  · rintro b rfl
    exact ⟨by decide +kernel, by simp⟩

end Again

end LibvirtProvider

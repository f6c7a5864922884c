import LibvirtProvider.Reservation

/-!
# Which `<ip>` element an update is of

A network has any number of `<ip>` elements, and three places choose one of
them by three rules. The candidates come from the first element of the IPv4
family (`allocationCandidates`), the machine's entry is found in any element
(`hostEntryInNetwork`), and the update is of the element with index `0`.

The rules come to the same element exactly when the first element is the one
that the candidates come from, as far as there is an update, and the one that
the entry is in, as far as there is an entry (`updatesAgree_iff`).
-/

namespace LibvirtProvider

open Interaction

/-! ## The elements chosen -/

/-- The index of the element that the candidates come from. It is `none`
exactly where the allocator says that there is no IPv4 subnet. -/
def Network.allocationElement (network : Network) : Option ℕ :=
  network.ips.findIdx? fun ip => ip.family == "inet"

/-- The index of the element that the entry found for a MAC is in. Any element
will do for `hostEntryInNetwork`, also one of another family. -/
def Network.entryElement (network : Network) (mac : String) : Option ℕ :=
  network.ips.findIdx? fun ip => ip.hosts.any fun host => equalFold host.mac mac

/-- The candidates of one element. -/
def elementCandidates (ip : NetworkIP) : GoComp (List UInt32) := do
  let ipNet ← parseSubnet ip.address ip.netmask
  match ip.dhcp.bind firstDHCPRange with
  | some (start, end_) => rangeCandidates start end_
  | none => subnetTailCandidates ipNet machineReservationBlockSize

section Elements

variable {network : Network} {mac : String}

/-- **The candidates are those of the element chosen for them.** It splits the
choice of the element from what is made of it, and only the choice matters for
where an update belongs. -/
theorem allocationCandidates_eq_element :
    allocationCandidates network
      = match network.allocationElement.bind fun i => network.ips[i]? with
        | none => throw (.text "network has no IPv4 subnet")
        | some ip => elementCandidates ip := by
  rw [Network.allocationElement, ← List.find?_eq_bind_findIdx?_getElem?]
  rfl

/-- **The entry found is the first of its element**, and there is an element
when there is an entry. -/
theorem hostEntryInNetwork_eq_element :
    hostEntryInNetwork network mac
      = (network.entryElement mac).bind fun i => network.ips[i]?.bind fun ip =>
          ip.hosts.find? fun host => equalFold host.mac mac := by
  rw [hostEntryInNetwork_eq_find?, Network.entryElement, Network.hosts]
  induction network.ips with
  | nil => rfl
  | cons ip ips ih =>
    rw [List.flatMap_cons, List.find?_append, List.findIdx?_cons, ih]
    by_cases h : (ip.hosts.any fun host => equalFold host.mac mac) = true
    · obtain ⟨host, hhost, hmac⟩ := List.any_eq_true.mp h
      rw [h]
      obtain ⟨e, he⟩ : ∃ e, (ip.hosts.find? fun host => equalFold host.mac mac) = some e :=
        Option.isSome_iff_exists.mp (List.find?_isSome.mpr ⟨host, hhost, hmac⟩)
      show Option.or _ _ = List.find? _ _
      rw [he]
      rfl
    · rw [Bool.not_eq_true] at h
      have hnone : (ip.hosts.find? fun host => equalFold host.mac mac) = none :=
        List.find?_eq_none.mpr fun host hhost => by simpa using List.any_eq_false.mp h host hhost
      rw [h, hnone]
      cases ips.findIdx? fun ip => ip.hosts.any fun host => equalFold host.mac mac with
      | none => rfl
      | some i => rfl

theorem entryElement_isSome :
    (network.entryElement mac).isSome = (hostEntryInNetwork network mac).isSome := by
  rw [hostEntryInNetwork_eq_find?, Bool.eq_iff_iff, Network.entryElement, List.findIdx?_isSome,
    List.find?_isSome, List.any_eq_true, Network.hosts]
  simp only [List.any_eq_true, List.mem_flatMap]
  constructor
  · rintro ⟨ip, hip, host, hhost, hmac⟩
    exact ⟨host, ⟨ip, hip, hhost⟩, hmac⟩
  · rintro ⟨host, ⟨ip, hip, hhost⟩, hmac⟩
    exact ⟨ip, hip, host, hhost, hmac⟩

end Elements

/-! ## The updates issued -/

section Updates

variable {network network' : Network} {netName domainName mac : String}
  {tr : List (Event NetworkSig)}

theorem ofComp_calls {α : Type} (x : GoComp α) :
    (NetworkM.ofComp x).run.Calls fun o : NetworkOp => o = .hang := by
  unfold NetworkM.ofComp
  split
  · exact ⟨rfl, fun r => r.elim⟩
  · trivial

/-- The only update of an update is itself. -/
theorem updateHost_calls (cmd : NetworkUpdateCommand) (host : NetworkDHCPHost)
    (f : GoError → GoError) : (ExceptT.adapt f (updateHost cmd host)).run.Calls
      fun o : NetworkOp => o = .update cmd 0 host 0 :=
  .adapt ⟨rfl, fun _ => trivial⟩

/-- **The update that a reservation issues** is the one of its plan, of the
first element. -/
theorem reserveMachineIP_updates {r : Except GoError String}
    (h : Prog.Exec networkSem (reserveMachineIP netName domainName mac).run network tr network' r)
    {cmd : NetworkUpdateCommand} {i flags : ℕ} {host : NetworkDHCPHost} {r' : Except GoError Unit}
    (hev : (⟨.update cmd i host flags, r'⟩ : Event NetworkSig) ∈ tr) :
    i = 0 ∧ ∃ plan, (planHostUpdate network domainName mac).run = some (.ok plan)
      ∧ plan.update = some (cmd, host) := by
  rcases Prog.exec_bind_except.mp h with ⟨e, hx, -⟩ | ⟨n, s₁, tr₁, tr₂, rfl, hx, hf⟩
  · cases networkXML_calls.of_mem hx hev
  obtain ⟨rfl, ⟨e, he⟩ | hn⟩ := networkXML_exec hx
  · cases he
  cases hn
  rw [List.mem_append] at hev
  replace hev := hev.resolve_left fun hev => by cases networkXML_calls.of_mem hx hev
  rcases Prog.exec_bind_except.mp hf with ⟨e, hp, -⟩ | ⟨plan, s₂, tr₃, tr₄, rfl, hp, hu⟩
  · cases (ofComp_calls _).of_mem hp hev
  rw [List.mem_append] at hev
  replace hev := hev.resolve_left fun hev => by cases (ofComp_calls _).of_mem hp hev
  obtain ⟨hplan, rfl⟩ := ofComp_exec hp
  cases hupdate : plan.update with
  | none =>
    rw [hupdate] at hu
    obtain ⟨rfl, -⟩ := hu
    cases hev
  | some u =>
    rw [hupdate] at hu
    have hcalls := (Prog.Calls.bind_except (updateHost_calls u.1 u.2
      (.wrap s!"update DHCP host entry for {domainName} on network {netName}"))
      (f := fun _ => pure plan.ip) fun _ => trivial).of_mem hu hev
    cases hcalls
    exact ⟨rfl, plan, hplan, hupdate⟩

/-- **The update that a release issues** is of the entry found, and of the
first element. -/
theorem releaseMachineIP_updates {r : Except GoError Unit}
    (h : Prog.Exec networkSem (releaseMachineIP netName domainName mac).run network tr network' r)
    {cmd : NetworkUpdateCommand} {i flags : ℕ} {host : NetworkDHCPHost} {r' : Except GoError Unit}
    (hev : (⟨.update cmd i host flags, r'⟩ : Event NetworkSig) ∈ tr) :
    i = 0 ∧ (hostEntryInNetwork network mac).isSome = true := by
  rcases Prog.exec_bind_except.mp h with ⟨e, hx, -⟩ | ⟨n, s₁, tr₁, tr₂, rfl, hx, hf⟩
  · cases networkXML_calls.of_mem hx hev
  obtain ⟨rfl, ⟨e, he⟩ | hn⟩ := networkXML_exec hx
  · cases he
  cases hn
  rw [List.mem_append] at hev
  replace hev := hev.resolve_left fun hev => by cases networkXML_calls.of_mem hx hev
  cases he : hostEntryInNetwork n mac with
  | none =>
    rw [he] at hf
    obtain ⟨rfl, -⟩ := hf
    cases hev
  | some e =>
    rw [he] at hf
    cases (updateHost_calls _ _ _).of_mem hf hev
    exact ⟨rfl, rfl⟩

/-- A planned update is issued, whether or not it fails. -/
theorem exists_reserveMachineIP_update (netName : String) {plan : HostPlan}
    {u : NetworkUpdateCommand × NetworkDHCPHost}
    (hplan : (planHostUpdate network domainName mac).run = some (.ok plan))
    (hu : plan.update = some u) :
    ∃ tr network' r r', Prog.Exec networkSem (reserveMachineIP netName domainName mac).run
        network tr network' r ∧ (⟨.update u.1 0 u.2 0, r'⟩ : Event NetworkSig) ∈ tr := by
  let failure : Except GoError Unit := .error (.libvirt (.other 38))
  refine ⟨_, network, .error (.wrap s!"update DHCP host entry for {domainName} on network {netName}"
    (.libvirt (.other 38))), failure, Prog.exec_bind_except.mpr (Or.inr ⟨_, _, _,
      _ ++ [⟨.update u.1 0 u.2 0, failure⟩], rfl, exec_networkXML network,
      Prog.exec_bind_except.mpr (Or.inr ⟨_, _, _, _, rfl, exec_ofComp hplan network, ?_⟩)⟩),
    List.mem_append_right _ (List.mem_append_right _ (List.mem_singleton.mpr rfl))⟩
  rw [hu]
  exact ⟨failure, network, [], ⟨{ fault := some 38 }, rfl⟩, rfl, rfl, rfl, rfl⟩

/-- The entry found is deleted, whether or not that fails. -/
theorem exists_releaseMachineIP_update (netName domainName : String) {e : NetworkDHCPHost}
    (he : hostEntryInNetwork network mac = some e) :
    ∃ tr network' r r', Prog.Exec networkSem (releaseMachineIP netName domainName mac).run
        network tr network' r
      ∧ (⟨.update .delete 0 (machineHostXML domainName mac e.ip) 0, r'⟩ : Event NetworkSig)
        ∈ tr := by
  let failure : Except GoError Unit := .error (.libvirt (.other 38))
  refine ⟨_, network, .error (.wrap s!"remove DHCP host entry for {domainName} on network {netName}"
    (.libvirt (.other 38))), failure, Prog.exec_bind_except.mpr (Or.inr ⟨_, _, _,
      [⟨.update .delete 0 (machineHostXML domainName mac e.ip) 0, failure⟩], rfl,
      exec_networkXML network, ?_⟩), List.mem_append_right _ (List.mem_singleton.mpr rfl)⟩
  rw [he]
  exact ⟨failure, network, [], ⟨{ fault := some 38 }, rfl⟩, rfl, rfl, rfl, rfl⟩

end Updates

/-! ## When they agree -/

/-- **Allocation, search and update agree** for a machine on a network: an
update of a reservation is of the element that its candidates came from, and
if it modifies an entry, of the element of that entry; and an update of a
release is of the element of the entry. -/
structure UpdatesAgree (network : Network) (domainName mac : String) : Prop where
  reserve : ∀ netName tr network' r, Prog.Exec networkSem
      (reserveMachineIP netName domainName mac).run network tr network' r →
    ∀ cmd i host flags r', (⟨.update cmd i host flags, r'⟩ : Event NetworkSig) ∈ tr →
      network.allocationElement = some i
      ∧ (cmd = .modify → network.entryElement mac = some i)
  release : ∀ netName tr network' r, Prog.Exec networkSem
      (releaseMachineIP netName domainName mac).run network tr network' r →
    ∀ cmd i host flags r', (⟨.update cmd i host flags, r'⟩ : Event NetworkSig) ∈ tr →
      network.entryElement mac = some i

/-- The machine's entry is not yet what it is to be, so that a reservation
issues an update. Where it does not, nothing is asked of the elements. -/
def NeedsUpdate (network : Network) (domainName mac : String) : Prop :=
  ∃ plan u, (planHostUpdate network domainName mac).run = some (.ok plan) ∧ plan.update = some u

/-- **Allocation and update agree on the subnet** exactly when the first `<ip>`
element is the first of the IPv4 family, as far as the machine needs an update,
and the one that holds the machine's entry, as far as it has one. -/
theorem updatesAgree_iff (network : Network) (domainName mac : String) :
    UpdatesAgree network domainName mac ↔
      (NeedsUpdate network domainName mac → network.allocationElement = some 0)
      ∧ ∀ i, network.entryElement mac = some i → i = 0 := by
  constructor
  · intro h
    refine ⟨fun hneeds => ?_, fun i hi => ?_⟩
    · obtain ⟨plan, u, hplan, hu⟩ := hneeds
      obtain ⟨tr, network', r, r', he, hev⟩ := exists_reserveMachineIP_update "default" hplan hu
      exact (h.reserve _ _ _ _ he _ _ _ _ _ hev).1
    · have hsome : (hostEntryInNetwork network mac).isSome = true := by
        rw [← entryElement_isSome, hi]
        rfl
      obtain ⟨e, he⟩ := Option.isSome_iff_exists.mp hsome
      obtain ⟨tr, network', r, r', hx, hev⟩ :=
        exists_releaseMachineIP_update "default" domainName he
      exact Option.some.inj (hi.symm.trans (h.release _ _ _ _ hx _ _ _ _ _ hev))
  · rintro ⟨halloc, hentry⟩
    have hfound (hsome : (hostEntryInNetwork network mac).isSome = true) :
        network.entryElement mac = some 0 := by
      rw [← entryElement_isSome] at hsome
      obtain ⟨i, hi⟩ := Option.isSome_iff_exists.mp hsome
      rw [hi, hentry i hi]
    constructor
    · intro netName tr network' r he cmd i host flags r' hev
      obtain ⟨rfl, plan, hplan, hu⟩ := reserveMachineIP_updates he hev
      refine ⟨halloc ⟨plan, _, hplan, hu⟩, fun hcmd => hfound ?_⟩
      -- a modification is planned where there is an entry
      obtain ⟨-, -, ⟨e, -, -, hnone⟩ | ⟨e, hsome, -⟩ | ⟨-, hadd⟩⟩ := planHostUpdate_spec hplan
      · cases hnone.symm.trans hu
      · rw [hsome]
        rfl
      · subst hcmd
        cases hadd.symm.trans hu
    · intro netName tr network' r he cmd i host flags r' hev
      obtain ⟨rfl, hsome⟩ := releaseMachineIP_updates he hev
      exact hfound hsome

/-- A network with an IPv6 element before the one of the IPv4 family. -/
def secondFamilyNetwork (hosts : List NetworkDHCPHost) : Network :=
  ⟨[{ address := "fd00::1", family := "ipv6", netmask := "", prefixLength := 64, dhcp := none },
    { address := "192.168.122.1", family := "inet", netmask := "255.255.255.0",
      prefixLength := 0, dhcp := some ⟨[⟨"192.168.122.2", "192.168.122.9"⟩], hosts⟩ }]⟩

/-- **The entry goes to another element than the address came from**, and one
that is in the second element is looked for in the first. The first `<ip>`
element of the network is one of IPv6, which an administrator may well have
put there. -/
theorem updates_disagree :
    ¬ UpdatesAgree (secondFamilyNetwork []) "default-node-1" (deriveDomainMAC "default-node-1")
    ∧ ¬ UpdatesAgree (secondFamilyNetwork
        [⟨deriveDomainMAC "default-node-1", "default-node-1", "192.168.122.2"⟩])
      "default-node-1" (deriveDomainMAC "default-node-1") := by
  constructor
  · intro h
    have hplan : (planHostUpdate (secondFamilyNetwork []) "default-node-1"
        (deriveDomainMAC "default-node-1")).run.map (·.isOk) = some true := by decide +kernel
    obtain ⟨r, hr, hok⟩ := Option.map_eq_some_iff.mp hplan
    cases r with
    | error err => cases hok
    | ok plan =>
      obtain ⟨-, -, ⟨e, he, -⟩ | ⟨e, he, -⟩ | ⟨-, hu⟩⟩ := planHostUpdate_spec hr
      · cases he
      · cases he
      · obtain ⟨tr, network', r, r', hx, hev⟩ := exists_reserveMachineIP_update "default" hr hu
        cases (h.reserve _ _ _ _ hx _ _ _ _ _ hev).1
  · intro h
    have hentry : hostEntryInNetwork (secondFamilyNetwork
        [⟨deriveDomainMAC "default-node-1", "default-node-1", "192.168.122.2"⟩])
        (deriveDomainMAC "default-node-1")
        = some ⟨deriveDomainMAC "default-node-1", "default-node-1", "192.168.122.2"⟩ := by
      decide +kernel
    obtain ⟨tr, network', r, r', hx, hev⟩ :=
      exists_releaseMachineIP_update "default" "default-node-1" hentry
    have hzero := h.release _ _ _ _ hx _ _ _ _ _ hev
    rw [show Network.entryElement _ _ = some 1 from by decide +kernel] at hzero
    cases hzero

end LibvirtProvider

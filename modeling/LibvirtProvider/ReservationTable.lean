import LibvirtProvider.ProbeTable
import LibvirtProvider.Provisioning

/-!
# The host entries as a table

What the reservations of a network come to. The entries of a definition are a
list of elements, changed one at a time by `add`, `modify` and `delete`
requests that libvirt matches by MAC, name and address, each by its own rule.
To the machines they are a table: a MAC holds at most one address, a
reservation puts the first candidate of the machine's probe order that no
other MAC holds, a release takes the address away, and a call that fails does
nothing (`reservations_refine_table`). Machines whose MACs collide are clients
of one key.

The table is small enough to count in: a machine finds an address as long as
there is one candidate for each machine and each foreign entry among the
candidates, whatever has been reserved, moved, released or has failed before
(`reservations_fit`).
-/

namespace LibvirtProvider

open Interaction

/-- The key of a machine: its MAC, in the form in which MACs are compared.
Machines are not told apart by name, because the code does not do so. -/
def machineKey (d : String) : List Char := foldKey (deriveDomainMAC d)

/-- **The table of a network**: the address of each MAC. Of several entries of
a MAC it has the first, the one `hostEntryInNetwork` finds. -/
def Network.table (network : Network) : Table (List Char) String := fun k =>
  (network.hosts.find? fun e => foldKey e.mac = k).map NetworkDHCPHost.ip

/-- What a machine tries, in order. It depends on the name and the candidates
only, and no call changes those, so it is the same all along a run. -/
def Network.probes (network : Network) (d : String) : List String :=
  match (allocationCandidates network).run with
  | some (.ok candidates) => (probeOrder candidates d).map formatIPv4
  | _ => []

/-- **A call for one of the machines**, by what came of it. The label has the
outcome, so that the run of the table can be asked to have the same ones. -/
inductive ReservationCall (machines : Set String) :
    Network → TableCall machines String → Network → Prop where
  | reserved (d : machines) {network network' : Network} {netName ip : String}
      {tr : List (Event NetworkSig)}
      (h : Prog.Exec networkSem (reserveMachineIP netName d (deriveDomainMAC d)).run network tr
        network' (.ok ip)) :
      ReservationCall machines network (.reserved d ip) network'
  | notReserved (d : machines) {network network' : Network} {netName : String}
      {tr : List (Event NetworkSig)} {err : GoError}
      (h : Prog.Exec networkSem (reserveMachineIP netName d (deriveDomainMAC d)).run network tr
        network' (.error err)) :
      ReservationCall machines network (.failed d) network'
  | released (d : machines) {network network' : Network} {netName : String}
      {tr : List (Event NetworkSig)}
      (h : Prog.Exec networkSem (releaseMachineIP netName d (deriveDomainMAC d)).run network tr
        network' (.ok ())) :
      ReservationCall machines network (.released d) network'
  | notReleased (d : machines) {network network' : Network} {netName : String}
      {tr : List (Event NetworkSig)} {err : GoError}
      (h : Prog.Exec networkSem (releaseMachineIP netName d (deriveDomainMAC d)).run network tr
        network' (.error err)) :
      ReservationCall machines network (.failed d) network'

section Table

variable {network network' : Network} {mac ip d netName : String} {k : List Char}
  {tr : List (Event NetworkSig)} {candidates : List UInt32}

theorem Network.table_eq_some (hap : network.hosts.Pairwise Apart) :
    network.table k = some ip ↔ ∃ e ∈ network.hosts, foldKey e.mac = k ∧ e.ip = ip := by
  unfold Network.table
  rw [Option.map_eq_some_iff]
  constructor
  · rintro ⟨e, he, hip⟩
    exact ⟨e, List.mem_of_find?_eq_some he, by simpa using List.find?_some he, hip⟩
  · rintro ⟨e, he, rfl, hip⟩
    cases hfind : network.hosts.find? (fun f => foldKey f.mac = foldKey e.mac) with
    | none => exact absurd (decide_eq_true rfl) (List.find?_eq_none.mp hfind e he)
    | some f =>
      have hmac : foldKey f.mac = foldKey e.mac := by simpa using List.find?_some hfind
      exact ⟨f, rfl, eq_of_mac_eq hap (List.mem_of_find?_eq_some hfind) he hmac ▸ hip⟩

/-- Taken in the table is not vacant in the entries. -/
theorem Network.taken_iff (hap : network.hosts.Pairwise Apart) :
    network.table.Taken (foldKey mac) ip ↔ ¬ Vacant network.hosts mac ip := by
  unfold Table.Taken
  simp only [Network.table_eq_some hap]
  constructor
  · rintro ⟨k', hne, e, he, rfl, rfl⟩ hvac
    exact hne ((vacant_iff_of_mem hap he).mp hvac)
  · intro hvac
    unfold Vacant at hvac
    push Not at hvac
    obtain ⟨e, he, hmac⟩ := hvac
    obtain ⟨hmem, hip⟩ := mem_of_lastOwner he
    exact ⟨_, hmac, e, hmem, rfl, hip⟩

theorem Network.probes_eq (hcand : (allocationCandidates network).run = some (.ok candidates))
    (d : String) : network.probes d = (probeOrder candidates d).map formatIPv4 := by
  rw [Network.probes, hcand]

/-- The first vacant candidate is the first slot that is not taken. -/
theorem Network.first_of_firstVacant (hap : network.hosts.Pairwise Apart)
    (hcand : (allocationCandidates network).run = some (.ok candidates)) {c : UInt32}
    (h : FirstVacant network.hosts candidates d (deriveDomainMAC d) c) :
    network.table.First (network.probes d) (machineKey d) (formatIPv4 c) := by
  obtain ⟨pre, post, horder, hpre, hvac⟩ := h
  refine ⟨pre.map formatIPv4, post.map formatIPv4, ?_, ?_, ?_⟩
  · rw [Network.probes_eq hcand, horder, List.map_append, List.map_cons]
  · rintro _ hb
    obtain ⟨x, hx, rfl⟩ := List.mem_map.mp hb
    exact (Network.taken_iff hap).mpr (hpre x hx)
  · exact fun htaken => (Network.taken_iff hap).mp htaken hvac

/-- **What a reservation does to the table**: one key gets an address, and no
other key changes. Adding, modifying and keeping an entry come to the same
here. -/
theorem table_reserve (hap : network.hosts.Pairwise Apart) (hap' : network'.hosts.Pairwise Apart)
    (hname : ∀ e ∈ network.hosts, e.name = d → foldKey e.mac = machineKey d)
    (h : Prog.Exec networkSem (reserveMachineIP netName d (deriveDomainMAC d)).run network tr
      network' (.ok ip)) :
    network'.table = Function.update network.table (machineKey d) (some ip) := by
  obtain ⟨pre, mid, post, e, hrep, rfl, -, -⟩ := reserveMachineIP_replaces hap hname h
  funext k
  by_cases hk : k = machineKey d
  · subst hk
    rw [Function.update_self]
    exact (Network.table_eq_some hap').mpr ⟨e, hrep.mem_after.mpr (Or.inl rfl), hrep.mac_eq, rfl⟩
  · rw [Function.update_of_ne hk]
    refine Option.ext fun x => (Network.table_eq_some hap').trans
      (Iff.trans (exists_congr fun f => ?_) (Network.table_eq_some hap).symm)
    -- the entries of another MAC are the ones that were there
    refine and_congr_left fun hf => ⟨fun hmem => ?_, fun hmem => ?_⟩
    · rcases hrep.mem_after.mp hmem with rfl | hmem
      · exact absurd (hf.1.symm.trans hrep.mac_eq) hk
      · exact hrep.mem_before hmem
    · exact hrep.mem_after.mpr (Or.inr (hrep.mem_others hmem fun hd => hk (hf.1.symm.trans hd)))

/-- **What a release does to the table**: the key has nothing any more. That
needs the entries apart, since a second entry of the MAC would show once the
first is gone. -/
theorem table_release (hap : network.hosts.Pairwise Apart) (hap' : network'.hosts.Pairwise Apart)
    (h : Prog.Exec networkSem (releaseMachineIP netName d mac).run network tr network' (.ok ())) :
    network'.table = Function.update network.table (foldKey mac) none := by
  have hnone {n : Network} (hn : n.hosts.Pairwise Apart)
      (hmac : ∀ e ∈ n.hosts, foldKey e.mac ≠ foldKey mac) : n.table (foldKey mac) = none := by
    refine Option.eq_none_iff_forall_ne_some.mpr fun x hx => ?_
    obtain ⟨e, he, hkey, -⟩ := (Network.table_eq_some hn).mp hx
    exact hmac e he hkey
  rcases releaseMachineIP_exec h with ⟨⟨_, hr⟩, -⟩ | ⟨-, hfound, rfl⟩ | ⟨-, x, -, hu⟩
  · cases hr
  · rw [← hnone hap (hostEntryInNetwork_eq_none.mp hfound), Function.update_eq_self]
  · obtain ⟨pre, a, post, hhosts, hhosts', hmac, -⟩ := Network.update_delete hu
    have hothers := (Replaces.of_mem hap hhosts hmac hmac hhosts).others
    funext k
    by_cases hk : k = foldKey mac
    · subst hk
      rw [Function.update_self]
      exact hnone hap' (hhosts' ▸ hothers)
    · rw [Function.update_of_ne hk]
      refine Option.ext fun x => (Network.table_eq_some hap').trans
        (Iff.trans (exists_congr fun f => ?_) (Network.table_eq_some hap).symm)
      rw [hhosts, hhosts', List.mem_append, List.mem_append, List.mem_cons]
      refine and_congr_left fun hf => or_congr_right ⟨Or.inr, fun hmem => hmem.resolve_left ?_⟩
      rintro rfl
      exact hk (hf.1.symm.trans hmac)

end Table

/-! ## The refinement -/

section Refinement

variable {machines : Set String} {network₀ network network' : Network}
  {call : TableCall machines String} {calls : List (TableCall machines String)}

/-- The machine of a call. -/
theorem ReservationCall.alone (h : ReservationCall machines network call network') :
    ∃ d ∈ machines, ReservationStep {d} network network' := by
  cases h with
  | reserved d h => exact ⟨d, d.2, .reserve rfl h⟩
  | notReserved d h => exact ⟨d, d.2, .reserve rfl h⟩
  | released d h => exact ⟨d, d.2, .release rfl h⟩
  | notReleased d h => exact ⟨d, d.2, .release rfl h⟩

/-- A call is a step of the sequences of calls. -/
theorem ReservationCall.step (h : ReservationCall machines network call network') :
    ReservationStep machines network network' := by
  cases h with
  | reserved d h => exact .reserve d.2 h
  | notReserved d h => exact .reserve d.2 h
  | released d h => exact .release d.2 h
  | notReleased d h => exact .release d.2 h

theorem reservationRun_of_run (h : Run (ReservationCall machines) network₀ calls network) :
    ReservationRun machines network₀ network := by
  induction h with
  | nil => exact .refl
  | snoc _ hstep ih => exact ih.tail hstep.step

/-- **One call**, on entries that are accounted for, is one call on the table,
with the same outcome. -/
theorem ReservationCall.refines (hacc : Accounted machines network)
    (h : ReservationCall machines network call network') :
    TableStep (fun d : machines => machineKey d) (fun d => network.probes d) network.table call
      network'.table := by
  have hacc' := hacc.run (.single h.step)
  cases h with
  | reserved d h =>
    have hname : ∀ e ∈ network.hosts, e.name = d → foldKey e.mac = machineKey d :=
      fun e he hd => hd ▸ hacc.mac_of_name e he (hd ▸ d.2)
    rw [table_reserve hacc.apart hacc'.apart hname h]
    obtain ⟨candidates, c, hcand, hfirst, rfl⟩ := reserveMachineIP_firstVacant h
    exact .reserved (Network.first_of_firstVacant hacc.apart hcand hfirst)
  | notReserved d h =>
    rcases reserveMachineIP_exec h with ⟨-, rfl⟩ | ⟨_, hr, -⟩
    · exact .failed
    · cases hr
  | released d h =>
    rw [table_release hacc.apart hacc'.apart h]
    exact .released
  | notReleased d h =>
    rcases releaseMachineIP_exec h with ⟨-, rfl⟩ | ⟨hr, -⟩ | ⟨hr, -⟩
    · exact .failed
    · cases hr
    · cases hr

/-- Entries that are accounted for, to begin with. -/
theorem Accounted.of_names (hapart : network₀.hosts.Pairwise Apart)
    (hnames : ∀ e ∈ network₀.hosts, e.name ∉ machines) : Accounted machines network₀ :=
  ⟨hapart, fun e he hname => absurd hname (hnames e he),
    fun e he => hnames e (Network.mem_hosts.mpr (Or.inr he))⟩

theorem refines_of_run (hacc : Accounted machines network₀)
    (hrun : Run (ReservationCall machines) network₀ calls network) :
    Run (TableStep (fun d : machines => machineKey d) fun d => network₀.probes d)
      network₀.table calls network.table := by
  induction hrun with
  | nil => exact .nil _
  | snoc hrun hstep ih =>
    refine ih.snoc ?_
    have hrun := reservationRun_of_run hrun
    have hprobes (n : Network) (h : allocationCandidates n = allocationCandidates network₀) :
        n.probes = network₀.probes := by
      funext d
      rw [Network.probes, h]
      rfl
    rw [← hprobes _ (allocationCandidates_run hrun)]
    exact hstep.refines (hacc.run hrun)

/-- **The reservations of a network are a table.** Start from entries that are
apart, none of them under a machine's name. Every sequence of reservations and
releases for the machines, with any call to libvirt failing, is a run of a
table of addresses keyed by MAC, with the same outcomes: a reservation gives a
machine the first candidate of its probe order that no other MAC holds, a
release leaves its MAC with none, a failure changes nothing. Machines may
share a MAC. -/
theorem reservations_refine_table (hapart : network₀.hosts.Pairwise Apart)
    (hnames : ∀ e ∈ network₀.hosts, e.name ∉ machines)
    (hrun : Run (ReservationCall machines) network₀ calls network) :
    Run (TableStep (fun d : machines => machineKey d) fun d => network₀.probes d)
      network₀.table calls network.table :=
  refines_of_run (.of_names hapart hnames) hrun

/-- A network of two candidates with a foreign entry, and with that of a node. -/
def nodeNetwork (nodes : List NetworkDHCPHost) : Network :=
  rangeNetwork "192.168.122.3" (⟨"52:54:00:00:00:01", "router", "192.168.122.9"⟩ :: nodes)

def nodeEntry : NetworkDHCPHost :=
  ⟨deriveDomainMAC "default-node-1", "default-node-1", "192.168.122.3"⟩

theorem nodeNetwork_run {machines : Set String} (h : "default-node-1" ∈ machines) :
    Run (ReservationCall machines) (nodeNetwork [])
      ([] ++ [.reserved ⟨"default-node-1", h⟩ "192.168.122.3"]) (nodeNetwork [nodeEntry]) := by
  have hend : (Prog.runWith networkStep {}
      (reserveMachineIP "default" "default-node-1" (deriveDomainMAC "default-node-1")).run
      (nodeNetwork []) []).map Prod.snd
      = some (nodeNetwork [nodeEntry], .ok "192.168.122.3") := by decide +kernel
  obtain ⟨tr, hexec⟩ := Prog.exists_exec_of_runWith hend
  exact (Run.nil _).snoc (.reserved ⟨"default-node-1", h⟩ hexec)

theorem reservations_refine_table_node :
    ∃ calls network, Run (ReservationCall {"default-node-1"}) (nodeNetwork []) calls network
      ∧ network ≠ nodeNetwork []
      ∧ Run (TableStep (fun d : ({"default-node-1"} : Set String) => machineKey d)
        fun d => (nodeNetwork []).probes d) (nodeNetwork []).table calls network.table := by
  have hrun := nodeNetwork_run (Set.mem_singleton "default-node-1")
  refine ⟨_, _, hrun, by decide +kernel, reservations_refine_table ?_ ?_ hrun⟩
  · simp [nodeNetwork]
  · simp [nodeNetwork]

end Refinement

/-! ## Room for every machine -/

section Fit

variable {machines : Finset String} {network₀ network network' : Network}
  {candidates : List UInt32} {calls : List (TableCall (machines : Set String) String)}

/-- The entries of a network that hold one of its candidates. Entries at other
addresses take no room from the machines. -/
def Network.onCandidates (network : Network) (candidates : List UInt32) : List NetworkDHCPHost :=
  network.hosts.filter fun e => e.ip ∈ candidates.map formatIPv4

/-- The probes of a machine are the candidates, each once. -/
theorem nodup_probes (hcand : (allocationCandidates network).run = some (.ok candidates))
    (d : String) : (network.probes d).Nodup := by
  obtain ⟨a, n, hmap, -⟩ := allocationCandidates_consecutive hcand
  rw [Network.probes_eq hcand, List.nodup_map_iff formatIPv4_injective, probeOrder,
    List.nodup_rotate]
  exact (pairwise_lt_of_map_toNat hmap).imp UInt32.ne_of_lt

theorem mem_probes (hcand : (allocationCandidates network).run = some (.ok candidates))
    {d ip : String} : ip ∈ network.probes d ↔ ip ∈ candidates.map formatIPv4 := by
  rw [Network.probes_eq hcand, List.mem_map, List.mem_map]
  exact exists_congr fun c => and_congr_left fun _ => mem_probeOrder d

theorem length_probes (hcand : (allocationCandidates network).run = some (.ok candidates))
    (d : String) : (network.probes d).length = candidates.length := by
  rw [Network.probes_eq hcand, List.length_map, probeOrder, List.length_rotate]

/-- Where the candidates are held by machines and others that are too few to
hold them all, there is room for each of the machines. -/
theorem Network.room_of_holders (hap : network.hosts.Pairwise Apart)
    (hcand : (allocationCandidates network).run = some (.ok candidates)) {K : Finset (List Char)}
    {d : String} (hK : ∀ k ip, ip ∈ network.probes d → network.table k = some ip → k ∈ K)
    (hd : machineKey d ∈ K) (hcard : K.card ≤ candidates.length) :
    network.Room (deriveDomainMAC d) := by
  rcases network.table.first_or_full (network.probes d) (machineKey d) with ⟨ip, hfirst⟩ | hfull
  · obtain ⟨pre, post, hprobes, -, hfree⟩ := hfirst
    have hmem : ip ∈ network.probes d := hprobes ▸ by simp
    obtain ⟨c, hc, rfl⟩ := List.mem_map.mp ((mem_probes hcand).mp hmem)
    exact ⟨candidates, hcand, c, hc, not_not.mp fun hvac => hfree ((taken_iff hap).mpr hvac)⟩
  · have hlen := hfull.length_le (nodup_probes hcand d) hK
    have hpos := Finset.card_pos.mpr ⟨_, hd⟩
    rw [length_probes hcand, Finset.card_erase_of_mem hd] at hlen
    omega

/-- The entry of a machine stays alone, and under its name. -/
theorem sole_of_run (hmacs : Set.InjOn deriveDomainMAC (machines : Set String)) {d : String}
    (hd : d ∈ machines) (hsole : Sole d network₀) (hnamed : Named d network₀)
    (hrun : Run (ReservationCall (machines : Set String)) network₀ calls network) :
    Sole d network ∧ Named d network := by
  induction hrun with
  | nil => exact ⟨hsole, hnamed⟩
  | snoc _ hstep ih =>
    obtain ⟨d', hd', hs⟩ := hstep.alone
    refine ⟨ih.1.step ?_ hs, ih.2.step hs⟩
    by_cases heq : d' = d
    · exact Or.inl heq
    · exact Or.inr fun hmac => heq (hmacs hd' hd hmac)

/-- **A network that cannot be used up.** Let the machines have different
MACs, and let the entries to begin with be apart and none of them a machine's.
If there are as many candidates as machines and entries on candidates
together, then after any sequence of reservations and releases for the
machines, whichever of their calls failed, a reservation for a machine returns
an address, as long as no call of its own fails. -/
theorem reservations_fit (hmacs : Set.InjOn deriveDomainMAC (machines : Set String))
    (hapart : network₀.hosts.Pairwise Apart)
    (hnames : ∀ e ∈ network₀.hosts, e.name ∉ machines)
    (hforeign : ∀ e ∈ network₀.hosts, ∀ d ∈ machines, foldKey e.mac ≠ machineKey d)
    (hcand : (allocationCandidates network₀).run = some (.ok candidates))
    (hroom : machines.card + (network₀.onCandidates candidates).length ≤ candidates.length)
    (hrun : Run (ReservationCall (machines : Set String)) network₀ calls network)
    {d : String} (hd : d ∈ machines) (netName : String) :
    ∃ network' ip, Prog.Yields workingSem
      (reserveMachineIP netName d (deriveDomainMAC d)).run network network' (.ok ip) := by
  have hacc : Accounted (machines : Set String) network₀ := .of_names hapart hnames
  have hcand' := allocationCandidates_run (reservationRun_of_run hrun)
  have hap := (hacc.run (reservationRun_of_run hrun)).apart
  obtain ⟨hsole, hnamed⟩ := sole_of_run hmacs hd (.of_none fun e he => hforeign e he d hd)
    (fun e he hname => absurd (hname ▸ hd) (hnames e (Network.mem_hosts.mpr (Or.inl he)))) hrun
  refine reserveMachineIP_yields netName hsole hnamed ?_
  rw [← hcand'] at hcand
  -- whoever holds a candidate is a machine or held it from the start
  let K : Finset (List Char) := machines.image machineKey
    ∪ ((network₀.onCandidates candidates).map fun e => foldKey e.mac).toFinset
  refine Network.room_of_holders (K := K) hap hcand ?_ ?_ ?_
  · refine TableStep.holders (fun i => Finset.mem_union_left _ (Finset.mem_image_of_mem _ i.2))
      (fun k ip hip hk => ?_) (refines_of_run hacc hrun)
    obtain ⟨e, he, rfl, rfl⟩ := (Network.table_eq_some hapart).mp hk
    refine Finset.mem_union_right _ (List.mem_toFinset.mpr (List.mem_map_of_mem ?_))
    exact List.mem_filter.mpr ⟨he, decide_eq_true ((mem_probes hcand).mp hip)⟩
  · exact Finset.mem_union_left _ (Finset.mem_image_of_mem _ hd)
  · refine (Finset.card_union_le _ _).trans (le_trans (Nat.add_le_add ?_ ?_) hroom)
    · exact Finset.card_image_le
    · exact (List.toFinset_card_le _).trans (List.length_map _).le

theorem reservations_fit_two_nodes :
    ∃ network' ip, Prog.Yields workingSem
      (reserveMachineIP "default" "default-node-2" (deriveDomainMAC "default-node-2")).run
      (nodeNetwork [nodeEntry]) network' (.ok ip) := by
  let machines : Finset String := {"default-node-1", "default-node-2"}
  have hmacs : Set.InjOn deriveDomainMAC (machines : Set String) := by
    have hne : deriveDomainMAC "default-node-1" ≠ deriveDomainMAC "default-node-2" := by
      decide +kernel
    simp [machines, Set.InjOn, hne, hne.symm]
  have hcand : (allocationCandidates (nodeNetwork [])).run
      = some (.ok [0xC0A87A02, 0xC0A87A03]) := by decide +kernel
  refine reservations_fit hmacs ?_ ?_ ?_ hcand ?_ (nodeNetwork_run (by simp [machines]))
    (by simp [machines]) "default"
  · simp [nodeNetwork]
  · simp [nodeNetwork, machines]
  · decide +kernel
  · decide +kernel

end Fit

end LibvirtProvider

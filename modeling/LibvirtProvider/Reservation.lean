import LibvirtProvider.HostEntries

/-!
# Reservations: uniqueness and isolation

What a run of `reserveMachineIP` and `releaseMachineIP` on one network can
do, and what a sequence of such runs keeps, one call after the other.

The first result is that host entries stay apart: no two of them come to
share a MAC, a name or an address (`reservations_stay_apart`). libvirt checks
that for an entry that is added, not for one that is modified, so it rests on
the provider: a modification hits the entry of the machine's own MAC
(`reserveMachineIP_replaces`). That is so because an entry that carries a
machine's name carries the machine's MAC – the strengthening that makes the
invariant inductive (`Accounted`).

The second is about two machines. An entry is found by MAC, and a MAC has 24
bits of a hash of the name, so two machines are kept from each other's entry
exactly when their MACs differ (`isolated_iff`); when they do not, the second
machine takes over the entry of the first.
-/

namespace LibvirtProvider

open Interaction

/-! ## Runs of the two calls -/

section Runs

variable {network network' : Network} {netName domainName mac : String}
  {tr : List (Event NetworkSig)}

/-- The calls of reading a network. -/
theorem networkXML_calls : networkXML.run.Calls fun o : NetworkOp => o = .getXMLDesc 0 := by
  refine .bind_except (.adapt ⟨rfl, fun _ => trivial⟩) fun xml => ?_
  cases xml with
  | doc network => trivial
  | malformed err => trivial

theorem networkXML_exec {r : Except GoError Network}
    (h : Prog.Exec networkSem networkXML.run network tr network' r) :
    network' = network ∧ ((∃ e, r = .error e) ∨ r = .ok network) := by
  rcases Prog.exec_bind_except.mp h with ⟨e, hx, rfl⟩ | ⟨a, s₁, tr₁, tr₂, -, hx, hf⟩
  · obtain ⟨b, ⟨r, s₁, tr₁, hs, -, -, rfl, -⟩, -⟩ := Prog.exec_adapt.mp hx
    exact ⟨(networkSem_getXMLDesc.mp hs).1, Or.inl ⟨e, rfl⟩⟩
  · obtain ⟨b, ⟨r', s₂, tr₃, hs, -, -, rfl, rfl⟩, hb⟩ := Prog.exec_adapt.mp hx
    obtain ⟨rfl, ⟨code, rfl⟩ | rfl⟩ := networkSem_getXMLDesc.mp hs
    · cases hb
    · cases hb
      obtain ⟨-, rfl, rfl⟩ := hf
      exact ⟨rfl, Or.inr rfl⟩

theorem updateHost_exec {cmd : NetworkUpdateCommand} {host : NetworkDHCPHost}
    {f : GoError → GoError} {r : Except GoError Unit}
    (h : Prog.Exec networkSem (ExceptT.adapt f (updateHost cmd host)).run network tr network' r) :
    (∃ e, r = .error e) ∧ network' = network
    ∨ r = .ok () ∧ network.update cmd 0 host = some network' := by
  obtain ⟨b, ⟨r', s₁, tr₁, hs, -, -, rfl, rfl⟩, rfl⟩ := Prog.exec_adapt.mp h
  rcases networkSem_update hs with ⟨⟨code, rfl⟩, rfl⟩ | ⟨rfl, hu⟩
  · exact Or.inl ⟨⟨_, rfl⟩, rfl⟩
  · exact Or.inr ⟨rfl, hu⟩

theorem updateHost_then_exec {cmd : NetworkUpdateCommand} {host : NetworkDHCPHost}
    {f : GoError → GoError} {ip : String} {r : Except GoError String}
    (h : Prog.Exec networkSem
      (do ExceptT.adapt f (updateHost cmd host); pure ip : NetworkM String).run
      network tr network' r) :
    (∃ e, r = .error e) ∧ network' = network
    ∨ r = .ok ip ∧ network.update cmd 0 host = some network' := by
  rcases Prog.exec_bind_except.mp h with ⟨e, hx, rfl⟩ | ⟨_, s, tr₁, tr₂, -, hx, -, rfl, rfl⟩
  · rcases updateHost_exec hx with ⟨-, rfl⟩ | ⟨hr, -⟩
    · exact Or.inl ⟨⟨e, rfl⟩, rfl⟩
    · cases hr
  · rcases updateHost_exec hx with ⟨⟨_, hr⟩, -⟩ | ⟨-, hupd⟩
    · cases hr
    · exact Or.inr ⟨rfl, hupd⟩

/-- A computation that does not return has no run. -/
theorem ofComp_exec {α : Type} {x : GoComp α} {r : Except GoError α}
    (h : Prog.Exec networkSem (NetworkM.ofComp x).run network tr network' r) :
    x.run = some r ∧ network' = network := by
  unfold NetworkM.ofComp at h
  split at h
  · obtain ⟨r, -⟩ := h
    exact r.elim
  · rename_i r' hx
    obtain ⟨-, rfl, rfl⟩ := h
    exact ⟨hx, rfl⟩

/-- A run of `reserveMachineIP` fails and changes nothing, or carries out its
plan. With nobody else in between, the network that is updated is the one the
plan was made on. -/
theorem reserveMachineIP_plan {r : Except GoError String}
    (h : Prog.Exec networkSem (reserveMachineIP netName domainName mac).run network tr
      network' r) :
    (∃ e, r = .error e) ∧ network' = network
    ∨ ∃ plan, (planHostUpdate network domainName mac).run = some (.ok plan) ∧ r = .ok plan.ip
      ∧ match plan.update with
        | none => network' = network
        | some (cmd, host) => network.update cmd 0 host = some network' := by
  rcases Prog.exec_bind_except.mp h with ⟨e, hx, rfl⟩ | ⟨n, s₁, tr₁, tr₂, -, hx, hf⟩
  · exact Or.inl ⟨⟨e, rfl⟩, (networkXML_exec hx).1⟩
  obtain ⟨rfl, ⟨e, he⟩ | hn⟩ := networkXML_exec hx
  · cases he
  cases hn
  rcases Prog.exec_bind_except.mp hf with ⟨e, hp, rfl⟩ | ⟨plan, s₂, tr₃, tr₄, -, hp, hu⟩
  · exact Or.inl ⟨⟨e, rfl⟩, (ofComp_exec hp).2⟩
  obtain ⟨hplan, rfl⟩ := ofComp_exec hp
  -- one update call follows, unless the plan has none
  cases hupd : plan.update with
  | none =>
    rw [hupd] at hu
    obtain ⟨-, rfl, rfl⟩ := hu
    exact Or.inr ⟨plan, hplan, rfl, by rw [hupd]⟩
  | some u =>
    obtain ⟨cmd, host⟩ := u
    rw [hupd] at hu
    rcases updateHost_then_exec hu with hfail | ⟨rfl, hnet⟩
    · exact Or.inl hfail
    · exact Or.inr ⟨plan, hplan, rfl, by rw [hupd]; exact hnet⟩

/-- **A run of `reserveMachineIP`.** It fails and changes nothing, or it
returns a candidate that is vacant for the MAC; in that case the MAC's entry
was bound to it already, or was modified to be, or was added. -/
theorem reserveMachineIP_exec {r : Except GoError String}
    (h : Prog.Exec networkSem (reserveMachineIP netName domainName mac).run network tr
      network' r) :
    (∃ e, r = .error e) ∧ network' = network
    ∨ ∃ ip, r = .ok ip
      ∧ (∃ candidates, (allocationCandidates network).run = some (.ok candidates)
        ∧ ∃ c ∈ candidates, ip = formatIPv4 c)
      ∧ Vacant network.hosts mac ip
      ∧ ((∃ e, hostEntryInNetwork network mac = some e ∧ e.ip = ip ∧ network' = network)
        ∨ (∃ e, hostEntryInNetwork network mac = some e ∧ e.ip ≠ ip
            ∧ network.update .modify 0 ⟨mac, domainName, ip⟩ = some network')
        ∨ (hostEntryInNetwork network mac = none
            ∧ network.update .addLast 0 ⟨mac, domainName, ip⟩ = some network')) := by
  rcases reserveMachineIP_plan h with hfail | ⟨plan, hplan, rfl, hu⟩
  · exact Or.inl hfail
  obtain ⟨hcand, hvac, hcases⟩ := planHostUpdate_spec hplan
  refine Or.inr ⟨plan.ip, rfl, hcand, hvac, ?_⟩
  rcases hcases with ⟨e, he, hip, hnone⟩ | ⟨e, he, hip, hmod⟩ | ⟨he, hadd⟩
  · rw [hnone] at hu
    exact Or.inl ⟨e, he, hip, hu⟩
  · rw [hmod] at hu
    exact Or.inr (Or.inl ⟨e, he, hip, hu⟩)
  · rw [hadd] at hu
    exact Or.inr (Or.inr ⟨he, hu⟩)

/-- **What is reserved is entered**: the MAC has an entry with the address,
also where the call found it there and made no update. -/
theorem exists_entry_of_reserve {ip : String}
    (h : Prog.Exec networkSem (reserveMachineIP netName domainName mac).run network tr
      network' (.ok ip)) :
    ∃ e ∈ network'.hosts, foldKey e.mac = foldKey mac ∧ e.ip = ip := by
  rcases reserveMachineIP_exec h with ⟨⟨e, he⟩, -⟩ | ⟨_, hip, -, -, hcases⟩
  · cases he
  cases hip
  rcases hcases with ⟨e, he, rfl, rfl⟩ | ⟨-, -, -, hu⟩ | ⟨-, hu⟩
  · obtain ⟨hmac, pre, post, hhosts, -⟩ := hostEntryInNetwork_eq_some.mp he
    exact ⟨e, by rw [hhosts]; simp, hmac, rfl⟩
  · obtain ⟨pre, _, post, -, hhosts, -⟩ := Network.update_modify hu
    exact ⟨⟨mac, domainName, ip⟩, by rw [hhosts]; simp, rfl, rfl⟩
  · exact ⟨⟨mac, domainName, ip⟩, by rw [(Network.update_addLast hu).1]; simp, rfl, rfl⟩

/-- Reading the network, when it does not fail. -/
theorem exec_networkXML (network : Network) :
    Prog.Exec networkSem networkXML.run network
      [⟨.getXMLDesc 0, (.ok (.doc network) : Except GoError NetworkXML)⟩] network (.ok network) :=
  ⟨.ok (.doc network), network, [], ⟨{}, rfl⟩, rfl, rfl, rfl, rfl⟩

theorem exec_ofComp {α : Type} {x : GoComp α} {a : α} (h : x.run = some (.ok a))
    (network : Network) :
    Prog.Exec networkSem (NetworkM.ofComp x).run network [] network (.ok a) := by
  rw [NetworkM.ofComp, h]
  exact ⟨rfl, rfl, rfl⟩

/-- **A plan is carried out**, when no call fails and libvirt accepts the
update. -/
theorem exists_reserveMachineIP_exec (netName : String) {plan : HostPlan}
    (hplan : (planHostUpdate network domainName mac).run = some (.ok plan))
    (hu : match plan.update with
      | none => network' = network
      | some (cmd, host) => network.update cmd 0 host = some network') :
    ∃ tr, Prog.Exec networkSem (reserveMachineIP netName domainName mac).run network tr
      network' (.ok plan.ip) := by
  suffices h : ∃ tr, Prog.Exec networkSem
      (match plan.update with
        | none => pure plan.ip
        | some (cmd, host) => do
          ExceptT.adapt
            (.wrap s!"update DHCP host entry for {domainName} on network {netName}")
            (updateHost cmd host)
          pure plan.ip : NetworkM String).run network tr network' (.ok plan.ip) by
    obtain ⟨tr, htr⟩ := h
    exact ⟨_, Prog.exec_bind_except.mpr (Or.inr ⟨_, _, _, _, rfl, exec_networkXML network,
      Prog.exec_bind_except.mpr (Or.inr ⟨_, _, _, _, rfl, exec_ofComp hplan network, htr⟩)⟩)⟩
  split at hu
  · exact ⟨[], rfl, hu, rfl⟩
  · rename_i cmd host _
    refine ⟨[⟨.update cmd 0 host 0, (.ok () : Except GoError Unit)⟩], ?_⟩
    refine ⟨.ok (), network', [], ⟨{}, ?_⟩, rfl, rfl, rfl, rfl⟩
    simp only [networkStep, hu]

/-- **A run of `releaseMachineIP`.** It fails and changes nothing, or the MAC
has no entry, or the entry found – under the machine's name – is deleted. -/
theorem releaseMachineIP_exec {r : Except GoError Unit}
    (h : Prog.Exec networkSem (releaseMachineIP netName domainName mac).run network tr
      network' r) :
    (∃ e, r = .error e) ∧ network' = network
    ∨ r = .ok () ∧ hostEntryInNetwork network mac = none ∧ network' = network
    ∨ r = .ok () ∧ ∃ e, hostEntryInNetwork network mac = some e
        ∧ network.update .delete 0 ⟨mac, domainName, e.ip⟩ = some network' := by
  rcases Prog.exec_bind_except.mp h with ⟨e, hx, rfl⟩ | ⟨n, s₁, tr₁, tr₂, -, hx, hf⟩
  · exact Or.inl ⟨⟨e, rfl⟩, (networkXML_exec hx).1⟩
  obtain ⟨rfl, ⟨e, he⟩ | hn⟩ := networkXML_exec hx
  · cases he
  cases hn
  cases he : hostEntryInNetwork n mac with
  | none =>
    rw [he] at hf
    obtain ⟨-, rfl, rfl⟩ := hf
    exact Or.inr (Or.inl ⟨rfl, rfl, rfl⟩)
  | some e =>
    rw [he] at hf
    rcases updateHost_exec hf with hfail | ⟨rfl, hupd⟩
    · exact Or.inl hfail
    · exact Or.inr (Or.inr ⟨rfl, e, rfl, hupd⟩)

end Runs

/-! ## Entries that are apart -/

/-- Two host entries that share neither MAC, nor name, nor address. libvirt
writes every address in its canonical form, so that equal addresses are equal
texts. -/
def Apart (e f : NetworkDHCPHost) : Prop :=
  foldKey e.mac ≠ foldKey f.mac ∧ e.name ≠ f.name ∧ e.ip ≠ f.ip

instance (e f : NetworkDHCPHost) : Decidable (Apart e f) :=
  inferInstanceAs (Decidable (_ ∧ _ ∧ _))

theorem Apart.symm {e f : NetworkDHCPHost} (h : Apart e f) : Apart f e :=
  ⟨h.1.symm, h.2.1.symm, h.2.2.symm⟩

instance : Std.Symm Apart := ⟨fun _ _ => Apart.symm⟩

/-- In a list of entries that are apart, two with the same MAC are one. -/
theorem eq_of_mac_eq {l : List NetworkDHCPHost} (hl : l.Pairwise Apart)
    {e f : NetworkDHCPHost} (he : e ∈ l) (hf : f ∈ l)
    (hmac : foldKey e.mac = foldKey f.mac) : e = f := by
  by_contra hne
  exact (hl.forall he hf hne).1 hmac

/-- There, an entry at an address that is vacant for a MAC has the MAC. -/
theorem Vacant.mac_eq {l : List NetworkDHCPHost} {mac ip : String} (h : Vacant l mac ip)
    (hl : l.Pairwise Apart) {e : NetworkDHCPHost} (he : e ∈ l) (hip : e.ip = ip) :
    foldKey e.mac = foldKey mac := by
  obtain ⟨f, hf⟩ := exists_lastOwner he hip
  obtain ⟨hfmem, hfip⟩ := mem_of_lastOwner hf
  by_cases hne : e = f
  · exact hne ▸ h f hf
  · exact absurd (hip.trans hfip.symm) (hl.forall he hfmem hne).2.2

/-- Putting an entry in place of another one. -/
theorem pairwise_apart_insert {pre post : List NetworkDHCPHost} {host : NetworkDHCPHost}
    (hl : (pre ++ post).Pairwise Apart) (hhost : ∀ e ∈ pre ++ post, Apart e host) :
    (pre ++ host :: post).Pairwise Apart := by
  rw [List.pairwise_middle (fun h => h.symm), List.pairwise_cons]
  exact ⟨fun e he => (hhost e he).symm, hl⟩

/-! ## What a reservation does to the entries -/

/-- **The entries of a MAC are replaced by one**: what was there for it gives
way to `e`, and the entries of other MACs stay where they were. Adding,
modifying and keeping an entry are all of this form, so one argument serves
for the three plans. -/
structure Replaces (mac : String) (before after : List NetworkDHCPHost)
    (pre mid post : List NetworkDHCPHost) (e : NetworkDHCPHost) : Prop where
  before_eq : before = pre ++ mid ++ post
  after_eq : after = pre ++ e :: post
  mac_eq : foldKey e.mac = foldKey mac
  mid_mac : ∀ f ∈ mid, foldKey f.mac = foldKey mac
  others : ∀ f ∈ pre ++ post, foldKey f.mac ≠ foldKey mac

namespace Replaces

variable {mac : String} {before after pre mid post : List NetworkDHCPHost} {e : NetworkDHCPHost}

/-- Where the entries are apart, there is one to be replaced at most. -/
theorem of_mem (hap : before.Pairwise Apart) {a : NetworkDHCPHost}
    (hbefore : before = pre ++ a :: post) (ha : foldKey a.mac = foldKey mac)
    (he : foldKey e.mac = foldKey mac) (hafter : after = pre ++ e :: post) :
    Replaces mac before after pre [a] post e := by
  have hap' := hap
  rw [hbefore, List.pairwise_middle (fun h => h.symm), List.pairwise_cons] at hap'
  refine ⟨by rw [hbefore, List.append_assoc, List.singleton_append], hafter, he, ?_, ?_⟩
  · intro f hf
    rw [List.mem_singleton.mp hf, ha]
  · intro f hf
    rw [← ha]
    exact (hap'.1 f hf).1.symm

theorem mem_before (h : Replaces mac before after pre mid post e) {f : NetworkDHCPHost}
    (hf : f ∈ pre ++ post) : f ∈ before := by
  rw [h.before_eq, List.mem_append, List.mem_append]
  rcases List.mem_append.mp hf with hf | hf
  · exact Or.inl (Or.inl hf)
  · exact Or.inr hf

theorem mem_others (h : Replaces mac before after pre mid post e) {f : NetworkDHCPHost}
    (hf : f ∈ before) (hmac : foldKey f.mac ≠ foldKey mac) : f ∈ pre ++ post := by
  rw [h.before_eq, List.mem_append, List.mem_append] at hf
  rcases hf with (hf | hf) | hf
  · exact List.mem_append_left _ hf
  · exact absurd (h.mid_mac f hf) hmac
  · exact List.mem_append_right _ hf

theorem mem_after (h : Replaces mac before after pre mid post e) {f : NetworkDHCPHost} :
    f ∈ after ↔ f = e ∨ f ∈ pre ++ post := by
  rw [h.after_eq, List.mem_append, List.mem_cons, List.mem_append]
  tauto

/-- The entries of other MACs are the same ones, in the same order. -/
theorem filter_eq (h : Replaces mac before after pre mid post e) :
    before.filter (fun f => !equalFold f.mac mac) = pre ++ post := by
  have hall : ∀ l : List NetworkDHCPHost, (∀ f ∈ l, foldKey f.mac ≠ foldKey mac) →
      l.filter (fun f => !equalFold f.mac mac) = l := by
    intro l hl
    rw [List.filter_eq_self]
    intro f hf
    rw [Bool.not_eq_true', equalFold_eq_false]
    exact hl f hf
  have hmid : mid.filter (fun f => !equalFold f.mac mac) = [] := by
    rw [List.filter_eq_nil_iff]
    intro f hf
    simp [h.mid_mac f hf]
  rw [h.before_eq, List.filter_append, List.filter_append, hmid, List.append_nil,
    hall pre fun f hf => h.others f (List.mem_append_left _ hf),
    hall post fun f hf => h.others f (List.mem_append_right _ hf)]

end Replaces

/-- Where the entries are apart, the entry of a MAC is found. -/
theorem hostEntryInNetwork_of_mem {network : Network} (hap : network.hosts.Pairwise Apart)
    {e : NetworkDHCPHost} (he : e ∈ network.hosts) {mac : String}
    (hmac : foldKey e.mac = foldKey mac) : hostEntryInNetwork network mac = some e := by
  obtain ⟨pre, post, hhosts⟩ := List.append_of_mem he
  refine hostEntryInNetwork_eq_some.mpr ⟨hmac, pre, post, hhosts, fun f hf => ?_⟩
  exact (Replaces.of_mem hap hhosts hmac hmac hhosts).others f (List.mem_append_left _ hf)

section Reserve

variable {network network' : Network} {netName domainName mac ip : String}
  {tr : List (Event NetworkSig)}

/-- **A successful reservation**, where the entries are apart and none of
another MAC has the machine's name: the entry of the MAC is the one that was
there, or the machine's, and no other entry has its address. -/
theorem reserveMachineIP_replaces (hap : network.hosts.Pairwise Apart)
    (hname : ∀ e ∈ network.hosts, e.name = domainName → foldKey e.mac = foldKey mac)
    (h : Prog.Exec networkSem (reserveMachineIP netName domainName mac).run network tr
      network' (.ok ip)) :
    ∃ pre mid post e, Replaces mac network.hosts network'.hosts pre mid post e ∧ e.ip = ip
      ∧ (∀ f ∈ pre ++ post, f.ip ≠ ip)
      ∧ (mid = [e] ∧ network' = network ∨ e = ⟨mac, domainName, ip⟩) := by
  rcases reserveMachineIP_exec h with ⟨⟨_, hr⟩, -⟩ | ⟨_, hr, -, hvac, hcases⟩
  · cases hr
  cases hr
  -- an entry that has the address has the MAC
  have howner : ∀ f ∈ network.hosts, f.ip = ip → foldKey f.mac = foldKey mac :=
    fun f hf hip => hvac.mac_eq hap hf hip
  rcases hcases with ⟨e, hsome, hip, rfl⟩ | ⟨a, hsome, hne, hu⟩ | ⟨hnone, hu⟩
  · obtain ⟨hmac, pre, post, hhosts, -⟩ := hostEntryInNetwork_eq_some.mp hsome
    have hrep := Replaces.of_mem hap hhosts hmac hmac hhosts
    exact ⟨pre, [e], post, e, hrep, hip,
      fun f hf hfip => hrep.others f hf (howner f (hrep.mem_before hf) hfip), Or.inl ⟨rfl, rfl⟩⟩
  · obtain ⟨pre, b, post, hhosts, hhosts', -, hb, -⟩ := Network.update_modify hu
    have hmem : b ∈ network.hosts := hhosts ▸ by simp
    have hmac : foldKey b.mac = foldKey mac := hb.elim id fun hb => hname b hmem hb
    have hrep := Replaces.of_mem (e := ⟨mac, domainName, ip⟩) hap hhosts hmac rfl hhosts'
    exact ⟨pre, [b], post, _, hrep, rfl,
      fun f hf hfip => hrep.others f hf (howner f (hrep.mem_before hf) hfip), Or.inr rfl⟩
  · have hmac := hostEntryInNetwork_eq_none.mp hnone
    have hrep : Replaces mac network.hosts network'.hosts network.firstHosts [] network.restHosts
        ⟨mac, domainName, ip⟩ := by
      refine ⟨by rw [List.append_nil, Network.hosts_eq], (Network.update_addLast hu).1, rfl,
        by simp, fun f hf => hmac f ?_⟩
      rwa [Network.hosts_eq]
    exact ⟨_, [], _, _, hrep, rfl,
      fun f hf hfip => hrep.others f hf (howner f (hrep.mem_before hf) hfip), Or.inr rfl⟩

/-- The entries stay apart. -/
theorem reserveMachineIP_apart (hap : network.hosts.Pairwise Apart)
    (hname : ∀ e ∈ network.hosts, e.name = domainName → foldKey e.mac = foldKey mac)
    (h : Prog.Exec networkSem (reserveMachineIP netName domainName mac).run network tr
      network' (.ok ip)) : network'.hosts.Pairwise Apart := by
  obtain ⟨pre, mid, post, e, hrep, rfl, hip, ⟨-, rfl⟩ | he⟩ := reserveMachineIP_replaces hap hname h
  · exact hap
  rw [hrep.after_eq]
  refine pairwise_apart_insert ?_ fun f hf => ⟨?_, ?_, hip f hf⟩
  · refine hap.sublist ?_
    rw [hrep.before_eq]
    exact (List.sublist_append_left pre mid).append (List.Sublist.refl post)
  · rw [hrep.mac_eq]
    exact hrep.others f hf
  · intro hfe
    rw [he] at hfe
    exact hrep.others f hf (hname f (hrep.mem_before hf) hfe)

/-- The entries of the other elements are left alone. -/
theorem reserveMachineIP_restHosts {r : Except GoError String}
    (h : Prog.Exec networkSem (reserveMachineIP netName domainName mac).run network tr
      network' r) : network'.restHosts = network.restHosts := by
  rcases reserveMachineIP_plan h with ⟨-, rfl⟩ | ⟨plan, -, -, hu⟩
  · rfl
  · split at hu
    · rw [hu]
    · exact (Network.update_zero hu).2

end Reserve

/-- An entry that already binds the address is kept. -/
theorem planHostUpdate_kept {network : Network} {domainName mac : String} {c : UInt32}
    {e : NetworkDHCPHost}
    (halloc : (allocateMachineIPIn network domainName mac).run = some (.ok (formatIPv4 c)))
    (he : hostEntryInNetwork network mac = some e) (hip : e.ip = formatIPv4 c) :
    (planHostUpdate network domainName mac).run = some (.ok ⟨formatIPv4 c, none⟩) := by
  refine GoComp.run_bind_eq_ok.mpr ⟨_, halloc, ?_⟩
  rw [he]
  dsimp only
  rw [if_pos ⟨hip ▸ formatIPv4_ne_empty c, equalFold_iff.mpr (by rw [hip])⟩]
  rfl

/-! ## Entries that are accounted for -/

/-- **The entries of a network are accounted for**: they are apart, and one
that carries a machine's name carries the machine's MAC and stands in the
first `<ip>` element, where the provider put it. Without the last two a
modification could hit an entry of another MAC, or miss the one that was
found, and being apart would not be kept. -/
structure Accounted (machines : Set String) (network : Network) : Prop where
  apart : network.hosts.Pairwise Apart
  mac_of_name : ∀ e ∈ network.hosts, e.name ∈ machines →
    foldKey e.mac = foldKey (deriveDomainMAC e.name)
  rest : ∀ e ∈ network.restHosts, e.name ∉ machines

namespace Accounted

variable {machines : Set String} {network network' : Network} {domainName ip netName : String}
  {tr : List (Event NetworkSig)}

/-- **Deleting** an entry. -/
theorem delete (h : Accounted machines network) {host : NetworkDHCPHost}
    (hu : network.update .delete 0 host = some network') : Accounted machines network' := by
  obtain ⟨pre, a, post, hhosts, hhosts', -⟩ := Network.update_delete hu
  have hsub : network'.hosts.Sublist network.hosts := by
    rw [hhosts, hhosts']
    exact (List.sublist_cons_self a post).append_left pre
  refine ⟨h.apart.sublist hsub, fun e he => h.mac_of_name e (hsub.subset he), ?_⟩
  rw [(Network.update_zero hu).2]
  exact h.rest

/-- **A reservation keeps the entries accounted for**, and a successful one
leaves the MAC with an entry bound to the address returned. -/
theorem reserve (h : Accounted machines network) (hd : domainName ∈ machines)
    {r : Except GoError String}
    (he : Prog.Exec networkSem
      (reserveMachineIP netName domainName (deriveDomainMAC domainName)).run
      network tr network' r) :
    Accounted machines network' ∧ ∀ ip, r = .ok ip →
      ∃ e ∈ network'.hosts, foldKey e.mac = foldKey (deriveDomainMAC domainName)
        ∧ e.ip = ip := by
  cases r with
  | error err =>
    rcases reserveMachineIP_exec he with ⟨-, rfl⟩ | ⟨_, hr, -⟩
    · exact ⟨h, fun ip hr => nomatch hr⟩
    · cases hr
  | ok ip =>
    have hname : ∀ f ∈ network.hosts, f.name = domainName →
        foldKey f.mac = foldKey (deriveDomainMAC domainName) :=
      fun f hf hfd => hfd ▸ h.mac_of_name f hf (hfd ▸ hd)
    obtain ⟨pre, mid, post, e, hrep, heip, -, hcases⟩ := reserveMachineIP_replaces h.apart hname he
    refine ⟨⟨reserveMachineIP_apart h.apart hname he, fun f hf hfn => ?_, ?_⟩, fun ip' hr => ?_⟩
    · rcases hcases with ⟨-, rfl⟩ | hnew
      · exact h.mac_of_name f hf hfn
      · rcases hrep.mem_after.mp hf with rfl | hf
        · rw [hrep.mac_eq, hnew]
        · exact h.mac_of_name f (hrep.mem_before hf) hfn
    · rw [reserveMachineIP_restHosts he]
      exact h.rest
    · cases hr
      exact ⟨e, hrep.mem_after.mpr (Or.inl rfl), hrep.mac_eq, heip⟩

/-- **A release keeps the entries accounted for.** -/
theorem release (h : Accounted machines network) {mac : String} {r : Except GoError Unit}
    (he : Prog.Exec networkSem (releaseMachineIP netName domainName mac).run
      network tr network' r) : Accounted machines network' := by
  rcases releaseMachineIP_exec he with ⟨-, rfl⟩ | ⟨-, -, rfl⟩ | ⟨-, e, -, hu⟩
  · exact h
  · exact h
  · exact h.delete hu

end Accounted

/-! ## A network with one candidate -/

/-- A network in the form the provider reads, whose candidates go from
`192.168.122.2` to `last`, with the host entries given. -/
def rangeNetwork (last : String) (hosts : List NetworkDHCPHost) : Network :=
  ⟨[{ address := "192.168.122.1", family := "inet", netmask := "255.255.255.0",
      prefixLength := 0,
      dhcp := some ⟨[⟨"192.168.122.2", last⟩], hosts⟩ }]⟩

/-- The one with a single candidate. -/
abbrev oneAddressNetwork : List NetworkDHCPHost → Network := rangeNetwork "192.168.122.2"

@[simp] theorem hosts_rangeNetwork (last : String) (hosts : List NetworkDHCPHost) :
    (rangeNetwork last hosts).hosts = hosts := List.append_nil hosts

/-- Where there is one candidate and it is free, the allocator takes it. -/
theorem allocateMachineIPIn_singleton {network : Network} {domainName mac : String}
    {c : UInt32} (hcand : (allocationCandidates network).run = some (.ok [c]))
    (hvac : Vacant network.hosts mac (formatIPv4 c)) :
    (allocateMachineIPIn network domainName mac).run = some (.ok (formatIPv4 c)) := by
  have hfree := (candidateFree_iff_vacant (formatIPv4_ne_empty c)).mpr hvac
  refine GoComp.run_bind_eq_ok.mpr ⟨[c], hcand, ?_⟩
  simp [List.range_succ, Nat.mod_one, hfree]

theorem allocationCandidates_oneAddressNetwork (hosts : List NetworkDHCPHost) :
    (allocationCandidates (oneAddressNetwork hosts)).run = some (.ok [0xC0A87A02]) := by
  have hhosts : allocationCandidates (oneAddressNetwork hosts)
      = allocationCandidates (oneAddressNetwork []) := rfl
  rw [hhosts]
  decide +kernel

/-! ## Sequences of calls -/

/-- One call for one of the machines, from beginning to end, with any of its
calls to libvirt failing. Calls do not overlap here; what can go wrong when
they do is a matter of interleavings. -/
inductive ReservationStep (machines : Set String) : Network → Network → Prop where
  | reserve {network network' : Network} {netName domainName : String}
      {tr : List (Event NetworkSig)} {r : Except GoError String}
      (hd : domainName ∈ machines)
      (h : Prog.Exec networkSem
        (reserveMachineIP netName domainName (deriveDomainMAC domainName)).run
        network tr network' r) : ReservationStep machines network network'
  | release {network network' : Network} {netName domainName : String}
      {tr : List (Event NetworkSig)} {r : Except GoError Unit}
      (hd : domainName ∈ machines)
      (h : Prog.Exec networkSem
        (releaseMachineIP netName domainName (deriveDomainMAC domainName)).run
        network tr network' r) : ReservationStep machines network network'

/-- A sequence of calls for the machines. -/
abbrev ReservationRun (machines : Set String) : Network → Network → Prop :=
  Relation.ReflTransGen (ReservationStep machines)

theorem Accounted.run {machines : Set String} {network network' : Network}
    (h : Accounted machines network) (hr : ReservationRun machines network network') :
    Accounted machines network' := by
  induction hr with
  | refl => exact h
  | tail _ hs ih =>
    cases hs with
    | reserve hd he => exact (ih.reserve hd he).1
    | release hd he => exact ih.release he

theorem filter_mac_eq_singleton {l : List NetworkDHCPHost} (hl : l.Pairwise Apart)
    {mac : String} {e : NetworkDHCPHost} (he : e ∈ l) (hmac : foldKey e.mac = foldKey mac) :
    l.filter (fun f => equalFold f.mac mac) = [e] := by
  obtain ⟨pre, post, rfl⟩ := List.append_of_mem he
  rw [List.pairwise_middle (fun h => h.symm), List.pairwise_cons] at hl
  have hother : ∀ f ∈ pre ++ post, equalFold f.mac mac = false := by
    intro f hf
    rw [equalFold_eq_false, ← hmac]
    exact (hl.1 f hf).1.symm
  rw [List.filter_append, List.filter_cons_of_pos (by rwa [equalFold_iff]),
    List.filter_eq_nil_iff.mpr fun f hf => by simp [hother f (List.mem_append_left _ hf)],
    List.filter_eq_nil_iff.mpr fun f hf => by simp [hother f (List.mem_append_right _ hf)]]
  rfl

/-- Reserving does not change the candidates. -/
theorem allocationCandidates_reserve {network network' : Network}
    {netName domainName mac : String} {tr : List (Event NetworkSig)} {r : Except GoError String}
    (he : Prog.Exec networkSem (reserveMachineIP netName domainName mac).run network tr
      network' r) : allocationCandidates network' = allocationCandidates network := by
  rcases reserveMachineIP_exec he with ⟨-, rfl⟩ | ⟨ip, -, -, -, hcases⟩
  · rfl
  rcases hcases with ⟨e, -, -, rfl⟩ | ⟨e, -, -, hu⟩ | ⟨-, hu⟩
  · rfl
  · exact Network.allocationCandidates_update hu
  · exact Network.allocationCandidates_update hu

/-- **Reservation uniqueness.** Start from entries that are apart, none of
them under a machine's name. After any sequence of calls for the machines,
whichever of them fail, the entries are apart; and a reservation that returns
an address leaves exactly one entry for its MAC, bound to that address, which
is one of the network's candidates. Machines may share a MAC. -/
theorem reservations_stay_apart {machines : Set String} {network₀ network : Network}
    (hapart : network₀.hosts.Pairwise Apart)
    (hnames : ∀ e ∈ network₀.hosts, e.name ∉ machines)
    (hrun : ReservationRun machines network₀ network) :
    network.hosts.Pairwise Apart
    ∧ ∀ domainName ∈ machines, ∀ netName tr network' ip,
        Prog.Exec networkSem
          (reserveMachineIP netName domainName (deriveDomainMAC domainName)).run
          network tr network' (.ok ip) →
        (∃ e, network'.hosts.filter (fun f => equalFold f.mac (deriveDomainMAC domainName)) = [e]
          ∧ e.ip = ip)
        ∧ ∃ candidates, (allocationCandidates network').run = some (.ok candidates)
          ∧ ∃ c ∈ candidates, ip = formatIPv4 c := by
  have h₀ : Accounted machines network₀ :=
    ⟨hapart, fun e he hname => absurd hname (hnames e he),
      fun e he => hnames e (Network.mem_hosts.mpr (Or.inr he))⟩
  have h := h₀.run hrun
  refine ⟨h.apart, fun domainName hd netName tr network' ip he => ?_⟩
  obtain ⟨h', hbound⟩ := h.reserve hd he
  obtain ⟨e, hmem, hmac, hip⟩ := hbound ip rfl
  refine ⟨⟨e, filter_mac_eq_singleton h'.apart hmem hmac, hip⟩, ?_⟩
  rw [allocationCandidates_reserve he]
  rcases reserveMachineIP_exec he with ⟨⟨_, hr⟩, -⟩ | ⟨ip', hr, hcand, -⟩
  · cases hr
  · cases hr
    exact hcand

theorem reservations_stay_apart_one_machine :
    ∃ network, ReservationRun {"default-node-1"}
        (oneAddressNetwork [⟨"52:54:00:00:00:01", "router", "192.168.122.9"⟩]) network
      ∧ network.hosts.length = 2 ∧ network.hosts.Pairwise Apart := by
  let router : NetworkDHCPHost := ⟨"52:54:00:00:00:01", "router", "192.168.122.9"⟩
  let node : NetworkDHCPHost :=
    ⟨deriveDomainMAC "default-node-1", "default-node-1", "192.168.122.2"⟩
  have hend : (Prog.runWith networkStep {}
      (reserveMachineIP "default" "default-node-1" (deriveDomainMAC "default-node-1")).run
      (oneAddressNetwork [router]) []).map Prod.snd
      = some (oneAddressNetwork [router, node], .ok "192.168.122.2") := by decide +kernel
  obtain ⟨tr, hexec⟩ := Prog.exists_exec_of_runWith hend
  have hrun : ReservationRun {"default-node-1"} (oneAddressNetwork [router])
      (oneAddressNetwork [router, node]) :=
    .single (.reserve (Set.mem_singleton _) hexec)
  refine ⟨_, hrun, by simp, (reservations_stay_apart ?_ ?_ hrun).1⟩
  · simp
  · simp [router]

/-! ## Two machines -/

/-- Whoever holds the address last after a reservation has its MAC. -/
theorem vacant_reserve {network network' : Network} {netName domainName mac ip : String}
    {tr : List (Event NetworkSig)}
    (he : Prog.Exec networkSem (reserveMachineIP netName domainName mac).run network tr
      network' (.ok ip)) : Vacant network'.hosts mac ip := by
  have hput : ∀ pre mid post : List NetworkDHCPHost, Vacant (pre ++ mid ++ post) mac ip →
      Vacant (pre ++ ⟨mac, domainName, ip⟩ :: post) mac ip := by
    intro pre mid post hvac e he
    rw [lastOwner_append, lastOwner_cons, if_pos rfl] at he
    cases hpost : lastOwner post ip with
    | some x => exact hvac e (by rw [lastOwner_append, hpost]; simpa [hpost] using he)
    | none =>
      obtain rfl : ⟨mac, domainName, ip⟩ = e := by simpa [hpost] using he
      rfl
  rcases reserveMachineIP_exec he with ⟨⟨_, hr⟩, -⟩ | ⟨ip', hr, -, hvac, hcases⟩
  · cases hr
  cases hr
  rcases hcases with ⟨e, -, -, rfl⟩ | ⟨e, -, -, hu⟩ | ⟨-, hu⟩
  · exact hvac
  · obtain ⟨pre, a, post, hhosts, hhosts', -⟩ := Network.update_modify hu
    rw [hhosts']
    exact hput pre [a] post (by simpa [hhosts] using hvac)
  · rw [(Network.update_addLast hu).1]
    exact hput network.firstHosts [] network.restHosts (by simpa [Network.hosts_eq] using hvac)

/-- **An entry is held against a machine**: it is there, and the last owner of
its address does not have the machine's MAC. The second part is what the
allocator goes by, and is kept also when other entries come to stand at the
address. -/
structure Held (a : String) (e : NetworkDHCPHost) (network : Network) : Prop where
  mem : e ∈ network.hosts
  owner : ¬ Vacant network.hosts (deriveDomainMAC a) e.ip

namespace Held

variable {a : String} {e : NetworkDHCPHost} {network network' : Network}

/-- The last owner of a held address, by name. -/
theorem exists_owner (h : Held a e network) : ∃ x, lastOwner network.hosts e.ip = some x
    ∧ foldKey x.mac ≠ foldKey (deriveDomainMAC a) := by
  have h := h.owner
  unfold Vacant at h
  push Not at h
  exact h

theorem addLast (h : Held a e network) {host : NetworkDHCPHost} (hip : host.ip ≠ e.ip)
    (hu : network.update .addLast 0 host = some network') : Held a e network' := by
  have hhosts' := (Network.update_addLast hu).1
  obtain ⟨x, hx, hmac⟩ := h.exists_owner
  have hmem := h.mem
  rw [Network.hosts_eq] at hx hmem
  refine ⟨?_, fun hvac => hmac (hvac x ?_)⟩
  · rw [hhosts']
    exact List.mem_append.mpr ((List.mem_append.mp hmem).imp_right (List.mem_cons_of_mem _))
  · rw [hhosts', lastOwner_append, lastOwner_cons, if_neg hip, Option.or_none,
      ← lastOwner_append]
    exact hx

/-- A modification for another machine, at another address. If it overwrites
the last owner itself, then for the name; no entry before that one has the
machine's MAC, and the entry held is among them. -/
theorem modify (h : Held a e network) (hname : e.name ≠ a)
    (hmac : foldKey e.mac ≠ foldKey (deriveDomainMAC a)) {ip : String} (hip : ip ≠ e.ip)
    (hu : network.update .modify 0 ⟨deriveDomainMAC a, a, ip⟩ = some network') :
    Held a e network' := by
  obtain ⟨pre, old, post, hhosts, hhosts', -, hold, hpre⟩ := Network.update_modify hu
  obtain ⟨x, hx, hxmac⟩ := h.exists_owner
  have hmem : e ∈ pre ++ post := by
    have hmem := h.mem
    rw [hhosts, List.mem_append, List.mem_cons] at hmem
    rcases hmem with he | rfl | he
    · exact List.mem_append_left _ he
    · exact absurd hold (not_or.mpr ⟨hmac, hname⟩)
    · exact List.mem_append_right _ he
  rw [hhosts, lastOwner_append, lastOwner_cons] at hx
  refine ⟨?_, fun hvac => ?_⟩
  · rw [hhosts']
    exact List.mem_append.mpr ((List.mem_append.mp hmem).imp_right (List.mem_cons_of_mem _))
  · unfold Vacant at hvac
    rw [hhosts', lastOwner_append, lastOwner_cons, if_neg hip, Option.or_none] at hvac
    cases hpost : lastOwner post e.ip with
    | some y =>
      rw [hpost] at hx hvac
      cases hx
      exact hxmac (hvac _ rfl)
    | none =>
      rw [hpost] at hvac
      rcases List.mem_append.mp hmem with he | he
      · obtain ⟨y, hy⟩ := exists_lastOwner he rfl
        exact (hpre y (mem_of_lastOwner hy).1).1 (hvac y hy)
      · exact lastOwner_eq_none.mp hpost e he rfl

/-- A deletion of an entry of another machine. -/
theorem delete (h : Held a e network) (hmac : foldKey e.mac ≠ foldKey (deriveDomainMAC a))
    {host : NetworkDHCPHost} (hhost : foldKey host.mac = foldKey (deriveDomainMAC a))
    (hu : network.update .delete 0 host = some network') : Held a e network' := by
  obtain ⟨pre, old, post, hhosts, hhosts', hold, -⟩ := Network.update_delete hu
  have hold := hold.trans hhost
  obtain ⟨x, hx, hxmac⟩ := h.exists_owner
  rw [hhosts, lastOwner_append, lastOwner_cons] at hx
  refine ⟨?_, fun hvac => hxmac (hvac x ?_)⟩
  · have hmem := h.mem
    rw [hhosts, List.mem_append, List.mem_cons] at hmem
    rw [hhosts', List.mem_append]
    rcases hmem with he | rfl | he
    · exact Or.inl he
    · exact absurd hold hmac
    · exact Or.inr he
  · -- the entry deleted has the machine's MAC, so it was not the last owner
    rw [hhosts', lastOwner_append]
    by_cases hip : old.ip = e.ip
    · rw [if_pos hip] at hx
      cases hpost : lastOwner post e.ip with
      | some y => simpa [hpost] using hx
      | none =>
        obtain rfl : old = x := by simpa [hpost] using hx
        exact absurd hold hxmac
    · rwa [if_neg hip, Option.or_none] at hx

/-- **Calls for one machine leave another machine's entry held**, when their
MACs differ. The entry cannot be found by the machine's MAC, and its address
is not vacant for it. -/
theorem run (h : Held a e network) (hname : e.name ≠ a)
    (hmac : foldKey e.mac ≠ foldKey (deriveDomainMAC a))
    (hr : ReservationRun {a} network network') : Held a e network' := by
  induction hr with
  | refl => exact h
  | tail _ hs ih =>
    cases hs with
    | reserve hd he =>
      obtain rfl := hd
      rcases reserveMachineIP_exec he with ⟨-, rfl⟩ | ⟨ip, -, -, hvac, hcases⟩
      · exact ih
      have hip : ip ≠ e.ip := fun hip => ih.owner (hip ▸ hvac)
      rcases hcases with ⟨_, -, -, rfl⟩ | ⟨_, -, -, hu⟩ | ⟨-, hu⟩
      · exact ih
      · exact ih.modify hname hmac hip hu
      · exact ih.addLast hip hu
    | release hd he =>
      obtain rfl := hd
      rcases releaseMachineIP_exec he with ⟨-, rfl⟩ | ⟨-, -, rfl⟩ | ⟨-, _, -, hu⟩
      · exact ih
      · exact ih
      · refine ih.delete hmac ?_ hu
        rfl

end Held

/-- **Two machines are isolated**: once a reservation for `b` has succeeded
and `b`'s entry is in the network, no sequence of calls for `a` changes the
entry, and none of them gets `a` its address. -/
def Isolated (a b : String) : Prop :=
  ∀ (netName : String) (network₀ network₁ network : Network) (tr : List (Event NetworkSig))
    (ip : String) (e : NetworkDHCPHost),
    Prog.Exec networkSem (reserveMachineIP netName b (deriveDomainMAC b)).run network₀ tr
      network₁ (.ok ip) →
    e ∈ network₁.hosts → e.name = b → foldKey e.mac = foldKey (deriveDomainMAC b) →
    e.ip = ip →
    ReservationRun {a} network₁ network →
    e ∈ network.hosts
    ∧ ∀ netName tr network' ip',
        Prog.Exec networkSem (reserveMachineIP netName a (deriveDomainMAC a)).run network tr
          network' (.ok ip') → ip' ≠ ip

/-- Machines with different MACs are isolated. Nothing is asked of the network
they are in: other entries may clash with each other and with both machines. -/
theorem isolated_of_mac_ne {a b : String} (hab : a ≠ b)
    (hne : deriveDomainMAC a ≠ deriveDomainMAC b) : Isolated a b := by
  intro netName network₀ network₁ network tr ip e hres hmem hname hmac hip hrun
  subst hip
  have hmac' : foldKey e.mac ≠ foldKey (deriveDomainMAC a) := fun h =>
    hne (deriveDomainMAC_eq_of_foldKey_eq (h.symm.trans hmac))
  have h₁ : Held a e network₁ := by
    refine ⟨hmem, fun hvac => ?_⟩
    obtain ⟨x, hx⟩ := exists_lastOwner hmem rfl
    exact hne (deriveDomainMAC_eq_of_foldKey_eq
      ((hvac x hx).symm.trans (vacant_reserve hres x hx)))
  have h := h₁.run (fun h => hab (h.symm.trans hname)) hmac' hrun
  refine ⟨h.mem, fun netName' tr' network' ip' hres' hip => ?_⟩
  rcases reserveMachineIP_exec hres' with ⟨⟨_, hr⟩, -⟩ | ⟨ip'', hr, -, hvac, -⟩
  · cases hr
  · cases hr
    exact h.owner (hip ▸ hvac)

/-- **Machines with the same MAC are not isolated**: `b` reserves the only
address, and then `a` is given it, since the entry that stands in its way has
its own MAC. -/
theorem not_isolated_of_mac_eq {a b : String}
    (heq : deriveDomainMAC a = deriveDomainMAC b) : ¬ Isolated a b := by
  intro h
  let ip := formatIPv4 0xC0A87A02
  let e : NetworkDHCPHost := ⟨deriveDomainMAC b, b, ip⟩
  have hplan : (planHostUpdate (oneAddressNetwork []) b (deriveDomainMAC b)).run
      = some (.ok ⟨ip, some (.addLast, e)⟩) :=
    GoComp.run_bind_eq_ok.mpr ⟨ip, allocateMachineIPIn_singleton
      (allocationCandidates_oneAddressNetwork []) (fun _ hx => nomatch hx), rfl⟩
  obtain ⟨tr, hb⟩ := exists_reserveMachineIP_exec "default" hplan
    (show _ = some (oneAddressNetwork [e]) from rfl)
  have hhosts := hosts_rangeNetwork "192.168.122.2" [e]
  have hfold : foldKey e.mac = foldKey (deriveDomainMAC a) := by rw [heq]
  have hfound : hostEntryInNetwork (oneAddressNetwork [e]) (deriveDomainMAC a) = some e := by
    rw [hostEntryInNetwork_eq_some, hhosts]
    exact ⟨hfold, [], [], rfl, by simp⟩
  have hvac : Vacant (oneAddressNetwork [e]).hosts (deriveDomainMAC a) ip := by
    intro x hx
    have hmem := (mem_of_lastOwner hx).1
    rw [hhosts, List.mem_singleton] at hmem
    rw [hmem, hfold]
  have hplan' : (planHostUpdate (oneAddressNetwork [e]) a (deriveDomainMAC a)).run
      = some (.ok ⟨ip, none⟩) :=
    planHostUpdate_kept (allocateMachineIPIn_singleton
      (allocationCandidates_oneAddressNetwork [e]) hvac) hfound rfl
  obtain ⟨tr', ha⟩ := exists_reserveMachineIP_exec "default" hplan' rfl
  have hmem : e ∈ (oneAddressNetwork [e]).hosts := List.mem_singleton_self e
  exact (h "default" _ _ _ tr ip e hb hmem rfl rfl rfl .refl).2 "default" tr' _ ip ha rfl

/-- **Reservation isolation.** Two machines are isolated exactly when their
MACs differ; their names differing is not enough. The condition is on the
names alone, as the MAC is a function of the name. -/
theorem isolated_iff {a b : String} (hab : a ≠ b) :
    Isolated a b ↔ deriveDomainMAC a ≠ deriveDomainMAC b :=
  ⟨fun h heq => not_isolated_of_mac_eq heq h, isolated_of_mac_ne hab⟩

theorem isolated_node_1_node_2 :
    "default-node-1" ≠ "default-node-2" ∧ Isolated "default-node-1" "default-node-2" :=
  ⟨by decide, (isolated_iff (by decide)).mpr (by decide +kernel)⟩

/-- The domains of the machines `node-3433` and `node-8295` of the namespace
`default` get the MAC `52:54:00:74:d2:1a`, both of them. -/
theorem not_isolated_node_3433_node_8295 :
    "default-node-3433-384deb" ≠ "default-node-8295-606197"
    ∧ deriveDomainMAC "default-node-3433-384deb" = "52:54:00:74:d2:1a"
    ∧ deriveDomainMAC "default-node-8295-606197" = "52:54:00:74:d2:1a"
    ∧ ¬ Isolated "default-node-3433-384deb" "default-node-8295-606197" :=
  ⟨by decide, by decide +kernel, by decide +kernel, not_isolated_of_mac_eq (by decide +kernel)⟩

end LibvirtProvider

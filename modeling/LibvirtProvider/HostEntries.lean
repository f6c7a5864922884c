import LibvirtProvider.MachineNetwork

/-!
# Host entries: what is read and what an update does

The two halves of a reservation. Reading: `hostEntryInNetwork` is the first
host entry of the MAC in document order, and the allocator takes an address
only where it is *vacant* for the MAC – bound by no entry, or last bound by
an entry of the same MAC (`allocateMachineIPIn_spec`). The map the allocator
consults keeps one owner per address, the last one, so that is what it knows
and no more.

Writing: `Network.update` is libvirt's `virNetworkUpdate` on the host entries
of one `<ip>` element. `ADD_LAST` refuses an entry that shares its MAC, name
or address with one of the element; `MODIFY` overwrites the first entry with
the same MAC or the same name, whatever the address; `DELETE` removes the
first entry that agrees in all three. No update touches another element, or
the ranges the candidates come from.
-/

namespace LibvirtProvider

open Interaction

/-! ## Overwriting the first match -/

section OverwriteFirst

variable {α : Type}

/-- Put `b` in place of the first element that satisfies `p`. Further matches
stay, which is how libvirt's `MODIFY` treats a list with several. -/
def overwriteFirst (p : α → Bool) (b : α) : List α → List α
  | [] => []
  | a :: l => if p a then b :: l else a :: overwriteFirst p b l

/-- Where there is a match, the list splits at the first one. -/
theorem exists_of_overwriteFirst {p : α → Bool} (b : α) {l : List α}
    (h : l.any p = true) :
    ∃ pre a post, l = pre ++ a :: post ∧ p a = true ∧ (∀ x ∈ pre, p x = false)
      ∧ overwriteFirst p b l = pre ++ b :: post := by
  induction l with
  | nil => cases h
  | cons a l ih =>
    by_cases hp : p a = true
    · exact ⟨[], a, l, rfl, hp, by simp, by rw [overwriteFirst, if_pos hp]; rfl⟩
    · rw [List.any_cons, Bool.or_eq_true, or_iff_right hp] at h
      obtain ⟨pre, a', post, rfl, ha', hpre, heq⟩ := ih h
      refine ⟨a :: pre, a', post, rfl, ha', ?_, ?_⟩
      · intro x hx
        rcases List.mem_cons.mp hx with rfl | hx
        · exact Bool.eq_false_iff.mpr hp
        · exact hpre x hx
      · rw [overwriteFirst, if_neg hp, heq]
        rfl

end OverwriteFirst

/-! ## Reading -/

theorem hostEntryInNetwork_eq_find? (network : Network) (mac : String) :
    hostEntryInNetwork network mac
      = network.hosts.find? fun host => equalFold host.mac mac := by
  unfold hostEntryInNetwork Network.hosts
  rw [List.find?_flatMap]
  congr 1
  funext ip
  unfold NetworkIP.hosts
  cases ip.dhcp <;> rfl

theorem hostEntryInNetwork_eq_none {network : Network} {mac : String} :
    hostEntryInNetwork network mac = none
      ↔ ∀ e ∈ network.hosts, foldKey e.mac ≠ foldKey mac := by
  rw [hostEntryInNetwork_eq_find?, List.find?_eq_none]
  refine forall_congr' fun e => imp_congr_right fun _ => ?_
  rw [equalFold_iff]

/-- The entry found is the network's first for the MAC. -/
theorem hostEntryInNetwork_eq_some {network : Network} {mac : String}
    {existing : NetworkDHCPHost} :
    hostEntryInNetwork network mac = some existing ↔
      foldKey existing.mac = foldKey mac ∧ ∃ pre post,
        network.hosts = pre ++ existing :: post ∧ ∀ e ∈ pre, foldKey e.mac ≠ foldKey mac := by
  rw [hostEntryInNetwork_eq_find?, List.find?_eq_some_iff_append, equalFold_iff]
  refine and_congr_right fun _ => exists_congr fun pre => exists_congr fun post =>
    and_congr_right fun _ => forall_congr' fun e => imp_congr_right fun _ => ?_
  rw [Bool.not_eq_true', equalFold_eq_false]

/-- One round of the loop that fills the address map. -/
def recordHost (set : String → Option String) (host : NetworkDHCPHost) :
    String → Option String :=
  if host.ip = "" then set else Function.update set host.ip (some host.mac)

theorem hostIPSet_eq_foldl (network : Network) :
    hostIPSet network = network.hosts.foldl recordHost (fun _ => none) := by
  unfold hostIPSet Network.hosts
  rw [List.foldl_flatMap]
  congr 1
  funext set ip
  unfold NetworkIP.hosts
  cases ip.dhcp <;> rfl

/-- The last host entry bound to an address. The map of `hostIPSet` is filled
in document order, so of several entries at one address it knows this one. -/
def lastOwner (hosts : List NetworkDHCPHost) (ip : String) : Option NetworkDHCPHost :=
  hosts.reverse.find? fun e => e.ip == ip

theorem lastOwner_append (l₁ l₂ : List NetworkDHCPHost) (ip : String) :
    lastOwner (l₁ ++ l₂) ip = (lastOwner l₂ ip).or (lastOwner l₁ ip) := by
  rw [lastOwner, List.reverse_append, List.find?_append]
  rfl

theorem lastOwner_singleton (e : NetworkDHCPHost) (ip : String) :
    lastOwner [e] ip = if e.ip = ip then some e else none := by
  by_cases h : e.ip = ip <;> simp [lastOwner, h]

theorem lastOwner_cons (e : NetworkDHCPHost) (l : List NetworkDHCPHost) (ip : String) :
    lastOwner (e :: l) ip = (lastOwner l ip).or (if e.ip = ip then some e else none) := by
  rw [← List.singleton_append, lastOwner_append, lastOwner_singleton]

theorem mem_of_lastOwner {l : List NetworkDHCPHost} {ip : String} {e : NetworkDHCPHost}
    (h : lastOwner l ip = some e) : e ∈ l ∧ e.ip = ip :=
  ⟨List.mem_reverse.mp (List.mem_of_find?_eq_some h), by simpa using List.find?_some h⟩

theorem lastOwner_eq_none {l : List NetworkDHCPHost} {ip : String} :
    lastOwner l ip = none ↔ ∀ e ∈ l, e.ip ≠ ip := by
  simp [lastOwner]

theorem exists_lastOwner {l : List NetworkDHCPHost} {ip : String} {e : NetworkDHCPHost}
    (he : e ∈ l) (hip : e.ip = ip) : ∃ e', lastOwner l ip = some e' := by
  rw [← Option.ne_none_iff_exists', Ne, lastOwner_eq_none]
  exact fun h => h e he hip

/-- **The map knows the last owner.** With this the map is gone from the
proofs: what the allocator asks of it is a question about the list of entries. -/
theorem foldl_recordHost (l : List NetworkDHCPHost) {ip : String} (hip : ip ≠ "") :
    l.foldl recordHost (fun _ => none) ip = (lastOwner l ip).map NetworkDHCPHost.mac := by
  induction l using List.reverseRecOn with
  | nil => rfl
  | append_singleton l e ih =>
    rw [List.foldl_append, List.foldl_cons, List.foldl_nil, lastOwner_append,
      lastOwner_singleton]
    by_cases he : e.ip = ip
    · rw [recordHost, if_neg (he ▸ hip), if_pos he, he, Function.update_self]
      rfl
    · have hskip : recordHost (l.foldl recordHost fun _ => none) e ip
          = l.foldl recordHost (fun _ => none) ip := by
        unfold recordHost
        split
        · rfl
        · exact Function.update_of_ne (Ne.symm he) _ _
      rw [hskip, if_neg he, ih]
      rfl

/-- **An address is vacant for a MAC**: no host entry is bound to it, or the
last one that is has the same MAC. That is weaker than being free: an earlier
entry of another MAC may be bound to the address as well. -/
def Vacant (hosts : List NetworkDHCPHost) (mac ip : String) : Prop :=
  ∀ e, lastOwner hosts ip = some e → foldKey e.mac = foldKey mac

theorem candidateFree_iff_vacant {network : Network} {mac ip : String} (hip : ip ≠ "") :
    candidateFree (hostIPSet network) mac ip = true ↔ Vacant network.hosts mac ip := by
  unfold candidateFree Vacant
  rw [hostIPSet_eq_foldl, foldl_recordHost _ hip]
  cases lastOwner network.hosts ip <;> simp [equalFold_iff]

/-- Where the MAC has no entry, a vacant address has none either. -/
theorem Vacant.unbound {hosts : List NetworkDHCPHost} {mac ip : String}
    (h : Vacant hosts mac ip) (hmac : ∀ e ∈ hosts, foldKey e.mac ≠ foldKey mac) :
    ∀ e ∈ hosts, e.ip ≠ ip := by
  rw [← lastOwner_eq_none, Option.eq_none_iff_forall_ne_some]
  exact fun e he => hmac e (mem_of_lastOwner he).1 (h e he)

theorem formatIPv4_ne_empty (n : UInt32) : formatIPv4 n ≠ "" := by
  intro h
  have hlen := congrArg String.length h
  unfold formatIPv4 putUint32 dottedDecimal at hlen
  rw [List.map_cons, List.map_cons, String.intercalate_cons_cons] at hlen
  simp at hlen

/-- A sequence of computations returns a value when both do. -/
theorem GoComp.run_bind_eq_ok {α β : Type} {x : GoComp α} {f : α → GoComp β} {b : β} :
    (x >>= f).run = some (.ok b) ↔
      ∃ a, x.run = some (.ok a) ∧ (f a).run = some (.ok b) := by
  rw [ExceptT.run_bind]
  cases hx : x.run with
  | none => simp
  | some r => cases r <;> simp

/-- **What the allocator guarantees**: the address is one of the network's
candidates and is vacant for the MAC. Which candidate it is does not matter to
the results on reservations. -/
theorem allocateMachineIPIn_spec {network : Network} {domainName mac ip : String}
    (h : (allocateMachineIPIn network domainName mac).run = some (.ok ip)) :
    ∃ candidates, (allocationCandidates network).run = some (.ok candidates)
      ∧ (∃ c ∈ candidates, ip = formatIPv4 c) ∧ Vacant network.hosts mac ip := by
  unfold allocateMachineIPIn at h
  obtain ⟨candidates, hcand, h⟩ := GoComp.run_bind_eq_ok.mp h
  refine ⟨candidates, hcand, ?_⟩
  split at h
  · cases h
  · rename_i hlen
    dsimp only at h
    split at h
    · rename_i ip' hfound
      obtain rfl : ip' = ip := by simpa using h
      obtain ⟨i, -, hi⟩ := List.exists_of_findSome?_eq_some hfound
      split at hi
      · rename_i hfree
        obtain rfl := Option.some.inj hi
        -- the probe stays inside the list
        have hlt := Nat.mod_lt ((hashDomainName domainName
          % candidates.length.toUInt64).toNat + i) (Nat.pos_of_ne_zero hlen)
        refine ⟨⟨_, ?_, rfl⟩, (candidateFree_iff_vacant (formatIPv4_ne_empty _)).mp hfree⟩
        rw [List.getD_eq_getElem?_getD, List.getElem?_eq_getElem hlt, Option.getD_some]
        exact List.getElem_mem hlt
      · cases hi
    · cases h

/-- **What the plan is.** The address is one of the candidates and vacant for
the MAC, and there are three plans: the MAC's entry already binds the address
and nothing is to be done; the MAC has an entry with another address, which
is to be modified; the MAC has no entry, and one is to be added. -/
theorem planHostUpdate_spec {network : Network} {domainName mac : String} {plan : HostPlan}
    (h : (planHostUpdate network domainName mac).run = some (.ok plan)) :
    (∃ candidates, (allocationCandidates network).run = some (.ok candidates)
      ∧ ∃ c ∈ candidates, plan.ip = formatIPv4 c)
    ∧ Vacant network.hosts mac plan.ip
    ∧ ((∃ e, hostEntryInNetwork network mac = some e ∧ e.ip = plan.ip ∧ plan.update = none)
      ∨ (∃ e, hostEntryInNetwork network mac = some e ∧ e.ip ≠ plan.ip
          ∧ plan.update = some (.modify, ⟨mac, domainName, plan.ip⟩))
      ∨ (hostEntryInNetwork network mac = none
          ∧ plan.update = some (.addLast, ⟨mac, domainName, plan.ip⟩))) := by
  unfold planHostUpdate at h
  obtain ⟨ip, halloc, h⟩ := GoComp.run_bind_eq_ok.mp h
  obtain ⟨candidates, hcand, ⟨c, hc, rfl⟩, hvac⟩ := allocateMachineIPIn_spec halloc
  split at h
  · rename_i e he
    split at h
    · rename_i hsame
      obtain rfl : (⟨formatIPv4 c, none⟩ : HostPlan) = plan := by simpa using h
      exact ⟨⟨candidates, hcand, c, hc, rfl⟩, hvac,
        Or.inl ⟨e, he, foldKey_eq_formatIPv4.mp (equalFold_iff.mp hsame.2), rfl⟩⟩
    · rename_i hsame
      obtain rfl : (⟨formatIPv4 c, some (.modify, machineHostXML domainName mac (formatIPv4 c))⟩
        : HostPlan) = plan := by simpa using h
      refine ⟨⟨candidates, hcand, c, hc, rfl⟩, hvac, Or.inr (Or.inl ⟨e, he, ?_, rfl⟩)⟩
      intro heq
      exact hsame ⟨heq ▸ formatIPv4_ne_empty c,
        equalFold_iff.mpr (foldKey_eq_formatIPv4.mpr heq)⟩
  · rename_i he
    obtain rfl : (⟨formatIPv4 c, some (.addLast, machineHostXML domainName mac (formatIPv4 c))⟩
      : HostPlan) = plan := by simpa using h
    exact ⟨⟨candidates, hcand, c, hc, rfl⟩, hvac, Or.inr (Or.inr ⟨he, rfl⟩)⟩

/-- The address of a plan is the one allocated. -/
theorem planHostUpdate_alloc {network : Network} {domainName mac : String} {plan : HostPlan}
    (h : (planHostUpdate network domainName mac).run = some (.ok plan)) :
    (allocateMachineIPIn network domainName mac).run = some (.ok plan.ip) := by
  unfold planHostUpdate at h
  obtain ⟨ip, halloc, h⟩ := GoComp.run_bind_eq_ok.mp h
  have hip : plan.ip = ip := by
    split at h
    · split at h <;> cases h <;> rfl
    · cases h
      rfl
  rwa [hip]

/-! ## Writing -/

/-- Two host entries that `ADD_LAST` does not let stand in one `<ip>`
element: they share the MAC, the name or the address. -/
def clashes (host e : NetworkDHCPHost) : Bool :=
  equalFold e.mac host.mac || e.name == host.name || e.ip == host.ip

/-- What `MODIFY` looks for: the same MAC or the same name. -/
def sameMacOrName (host e : NetworkDHCPHost) : Bool :=
  equalFold e.mac host.mac || e.name == host.name

/-- What `DELETE` looks for: the same MAC, name and address. -/
def sameEntry (host e : NetworkDHCPHost) : Bool :=
  equalFold e.mac host.mac && e.name == host.name && e.ip == host.ip

/-- libvirt's update of a list of host entries; `none` where it refuses. Only
an addition is checked against the addresses in use: a modification puts its
entry in place of the first match whatever address it brings. -/
def updateHosts (cmd : NetworkUpdateCommand) (host : NetworkDHCPHost)
    (hosts : List NetworkDHCPHost) : Option (List NetworkDHCPHost) :=
  match cmd with
  | .addLast => if hosts.any (clashes host) then none else some (hosts ++ [host])
  | .modify =>
    if hosts.any (sameMacOrName host) then some (overwriteFirst (sameMacOrName host) host hosts)
    else none
  | .delete =>
    if hosts.any (sameEntry host) then some (hosts.eraseP (sameEntry host)) else none

/-- An `<ip>` element with other host entries. -/
def NetworkIP.withHosts (ip : NetworkIP) (hosts : List NetworkDHCPHost) : NetworkIP :=
  { ip with dhcp := some ⟨(ip.dhcp.map NetworkDHCP.ranges).getD [], hosts⟩ }

/-- **libvirt's `virNetworkUpdate`** on the host entries of the `<ip>` element
with index `parentIndex`; `none` where it refuses. Entries of other elements
are not looked at, also not for clashes. -/
def Network.update (network : Network) (cmd : NetworkUpdateCommand) (parentIndex : ℕ)
    (host : NetworkDHCPHost) : Option Network :=
  match network.ips[parentIndex]? with
  | none => none
  | some ip =>
    (updateHosts cmd host ip.hosts).map fun hosts =>
      ⟨network.ips.set parentIndex (ip.withHosts hosts)⟩

theorem updateHosts_addLast {host : NetworkDHCPHost} {l l' : List NetworkDHCPHost} :
    updateHosts .addLast host l = some l' ↔
      (∀ e ∈ l, foldKey e.mac ≠ foldKey host.mac ∧ e.name ≠ host.name ∧ e.ip ≠ host.ip)
        ∧ l' = l ++ [host] := by
  unfold updateHosts
  dsimp only
  split
  · rename_i h
    obtain ⟨e, he, hclash⟩ := List.any_eq_true.mp h
    refine iff_of_false (by simp) fun hall => ?_
    obtain ⟨hmac, hname, hip⟩ := hall.1 e he
    simp [clashes, hmac, hname, hip] at hclash
  · rename_i h
    rw [Option.some.injEq, eq_comm, iff_and_self]
    rintro -
    intro e he
    have hno : clashes host e = false := by
      rw [← Bool.not_eq_true]
      exact fun hc => h (List.any_eq_true.mpr ⟨e, he, hc⟩)
    simpa [clashes, and_assoc] using hno

/-- A modification overwrites the first entry with the same MAC or name. -/
theorem updateHosts_modify {host : NetworkDHCPHost} {l l' : List NetworkDHCPHost}
    (h : updateHosts .modify host l = some l') :
    ∃ pre a post, l = pre ++ a :: post
      ∧ (foldKey a.mac = foldKey host.mac ∨ a.name = host.name)
      ∧ (∀ x ∈ pre, foldKey x.mac ≠ foldKey host.mac ∧ x.name ≠ host.name)
      ∧ l' = pre ++ host :: post := by
  unfold updateHosts at h
  dsimp only at h
  split at h
  · rename_i hany
    obtain ⟨pre, a, post, rfl, ha, hpre, heq⟩ := exists_of_overwriteFirst host hany
    refine ⟨pre, a, post, rfl, by simpa [sameMacOrName] using ha, fun x hx => ?_, ?_⟩
    · simpa [sameMacOrName] using hpre x hx
    · rw [heq] at h
      exact (Option.some.inj h).symm
  · cases h

/-- A deletion removes the first entry that agrees in everything. -/
theorem updateHosts_delete {host : NetworkDHCPHost} {l l' : List NetworkDHCPHost}
    (h : updateHosts .delete host l = some l') :
    ∃ pre a post, l = pre ++ a :: post ∧ foldKey a.mac = foldKey host.mac
      ∧ a.name = host.name ∧ a.ip = host.ip ∧ l' = pre ++ post := by
  unfold updateHosts at h
  dsimp only at h
  split at h
  · rename_i hany
    obtain ⟨e, he, hsame⟩ := List.any_eq_true.mp hany
    obtain ⟨a, pre, post, -, ha, hl, heq⟩ := List.exists_of_eraseP he hsame
    have ha' : (foldKey a.mac = foldKey host.mac ∧ a.name = host.name) ∧ a.ip = host.ip := by
      simpa [sameEntry] using ha
    refine ⟨pre, a, post, hl, ha'.1.1, ha'.1.2, ha'.2, ?_⟩
    rw [heq] at h
    exact (Option.some.inj h).symm
  · cases h

/-! ## The first element and the others

The provider's updates are of the first `<ip>` element, whatever element the
address or the entry came from. -/

/-- The host entries of the first `<ip>` element. -/
def Network.firstHosts (network : Network) : List NetworkDHCPHost :=
  match network.ips with
  | [] => []
  | ip :: _ => ip.hosts

/-- The host entries of the other `<ip>` elements. -/
def Network.restHosts (network : Network) : List NetworkDHCPHost :=
  network.ips.tail.flatMap NetworkIP.hosts

theorem Network.hosts_eq (network : Network) :
    network.hosts = network.firstHosts ++ network.restHosts := by
  unfold Network.hosts Network.firstHosts Network.restHosts
  cases network.ips <;> rfl

theorem Network.mem_hosts {network : Network} {e : NetworkDHCPHost} :
    e ∈ network.hosts ↔ e ∈ network.firstHosts ∨ e ∈ network.restHosts := by
  rw [Network.hosts_eq, List.mem_append]

@[simp] theorem NetworkIP.hosts_withHosts (ip : NetworkIP) (hosts : List NetworkDHCPHost) :
    (ip.withHosts hosts).hosts = hosts := rfl

/-- **An update of the first element** changes its host entries and nothing of
the others'. All updates of the provider are of this kind. -/
theorem Network.update_zero {network network' : Network} {cmd : NetworkUpdateCommand}
    {host : NetworkDHCPHost} (h : network.update cmd 0 host = some network') :
    updateHosts cmd host network.firstHosts = some network'.firstHosts
      ∧ network'.restHosts = network.restHosts := by
  unfold Network.update at h
  cases hips : network.ips with
  | nil => simp [hips] at h
  | cons ip rest =>
    rw [hips] at h
    obtain ⟨hosts, hu, rfl⟩ := Option.map_eq_some_iff.mp h
    refine ⟨?_, by simp [Network.restHosts, hips]⟩
    unfold Network.firstHosts
    rw [hips]
    exact hu

/-- An addition, over all of the network's entries: the entry comes after
those of the first element, and clashes with none of them. -/
theorem Network.update_addLast {network network' : Network} {host : NetworkDHCPHost}
    (h : network.update .addLast 0 host = some network') :
    network'.hosts = network.firstHosts ++ host :: network.restHosts
      ∧ ∀ e ∈ network.firstHosts,
          foldKey e.mac ≠ foldKey host.mac ∧ e.name ≠ host.name ∧ e.ip ≠ host.ip := by
  obtain ⟨hu, hrest⟩ := Network.update_zero h
  obtain ⟨hclash, hfirst⟩ := updateHosts_addLast.mp hu
  refine ⟨?_, hclash⟩
  rw [Network.hosts_eq, hfirst, hrest, List.append_assoc, List.singleton_append]

/-- A modification, over all of the network's entries: it overwrites an entry
of the first element that has the MAC or the name, and none before it has. -/
theorem Network.update_modify {network network' : Network} {host : NetworkDHCPHost}
    (h : network.update .modify 0 host = some network') :
    ∃ pre a post, network.hosts = pre ++ a :: post ∧ network'.hosts = pre ++ host :: post
      ∧ network.firstHosts.find? (sameMacOrName host) = some a
      ∧ (foldKey a.mac = foldKey host.mac ∨ a.name = host.name)
      ∧ ∀ x ∈ pre, foldKey x.mac ≠ foldKey host.mac ∧ x.name ≠ host.name := by
  obtain ⟨hu, hrest⟩ := Network.update_zero h
  obtain ⟨pre, a, post, hfirst, ha, hpre, hfirst'⟩ := updateHosts_modify hu
  refine ⟨pre, a, post ++ network.restHosts, ?_, ?_, ?_, ha, hpre⟩
  · rw [Network.hosts_eq, hfirst, List.append_assoc, List.cons_append]
  · rw [Network.hosts_eq, hfirst', hrest, List.append_assoc, List.cons_append]
  · rw [hfirst, List.find?_eq_some_iff_append]
    refine ⟨by simpa [sameMacOrName] using ha, pre, post, rfl, fun x hx => ?_⟩
    simpa [sameMacOrName] using hpre x hx

/-- A deletion, over all of the network's entries. -/
theorem Network.update_delete {network network' : Network} {host : NetworkDHCPHost}
    (h : network.update .delete 0 host = some network') :
    ∃ pre a post, network.hosts = pre ++ a :: post ∧ network'.hosts = pre ++ post
      ∧ foldKey a.mac = foldKey host.mac ∧ a.name = host.name ∧ a.ip = host.ip := by
  obtain ⟨hu, hrest⟩ := Network.update_zero h
  obtain ⟨pre, a, post, hfirst, hmac, hname, hip, hfirst'⟩ := updateHosts_delete hu
  refine ⟨pre, a, post ++ network.restHosts, ?_, ?_, hmac, hname, hip⟩
  · rw [Network.hosts_eq, hfirst, List.append_assoc, List.cons_append]
  · rw [Network.hosts_eq, hfirst', hrest, List.append_assoc]

theorem firstDHCPRange_withHosts (ip : NetworkIP) (hosts : List NetworkDHCPHost) :
    (ip.withHosts hosts).dhcp.bind firstDHCPRange = ip.dhcp.bind firstDHCPRange := by
  unfold NetworkIP.withHosts
  cases ip.dhcp <;> rfl

/-- The elements of a network without their host entries: the addresses, the
masks and the ranges. The provider reads them and writes none of them. -/
def Network.shape (network : Network) : List NetworkIP :=
  network.ips.map fun ip => ip.withHosts []

theorem find?_shape (network : Network) :
    network.shape.find? (fun ip => ip.family == "inet")
      = (network.ips.find? fun ip => ip.family == "inet").map fun ip => ip.withHosts [] := by
  rw [Network.shape, List.find?_map]
  rfl

theorem allocationCandidates_shape (network : Network) :
    allocationCandidates ⟨network.shape⟩ = allocationCandidates network := by
  unfold allocationCandidates
  rw [find?_shape]
  cases network.ips.find? fun ip => ip.family == "inet" with
  | none => rfl
  | some ip =>
    dsimp only [Option.map_some]
    rw [firstDHCPRange_withHosts]
    rfl

/-- **An update leaves everything but host entries** as it is, so that what
the provider reads besides them is the same for all clients at all times. -/
theorem Network.shape_update {network network' : Network} {cmd : NetworkUpdateCommand}
    {parentIndex : ℕ} {host : NetworkDHCPHost}
    (h : network.update cmd parentIndex host = some network') :
    network'.shape = network.shape := by
  unfold Network.update at h
  cases hip : network.ips[parentIndex]? with
  | none => simp [hip] at h
  | some ip =>
    rw [hip] at h
    obtain ⟨hosts, -, rfl⟩ := Option.map_eq_some_iff.mp h
    have hself : (ip.withHosts hosts).withHosts [] = ip.withHosts [] := by
      simp [NetworkIP.withHosts]
    have hmap : (network.ips.map fun ip => ip.withHosts [])[parentIndex]?
        = some (ip.withHosts []) := by
      rw [List.getElem?_map, hip, Option.map_some]
    obtain ⟨hi, hget⟩ := List.getElem?_eq_some_iff.mp hmap
    dsimp only [Network.shape]
    rw [List.map_set, hself, ← hget, List.set_getElem_self]

/-- **No update changes the candidates.** A run of any calls has one list of
them, and statements about a run can name it at the start. -/
theorem Network.allocationCandidates_update {network network' : Network}
    {cmd : NetworkUpdateCommand} {host : NetworkDHCPHost}
    (h : network.update cmd 0 host = some network') :
    allocationCandidates network' = allocationCandidates network := by
  rw [← allocationCandidates_shape network', Network.shape_update h, allocationCandidates_shape]

/-! ## A network as a state -/

/-- What the environment decides about a call on a network: whether it
fails, with which code, and which leases there are. -/
structure NetworkChoice where
  fault : Option ℕ := none
  leases : List NetworkDHCPLease := []

/-- **The calls of `networkOperations` on a network.** A failing call changes
nothing, and so does an update that libvirt refuses. Flags are ignored: there
is one definition here, and what they select is the subject of a model with
two. -/
def networkStep (network : Network) :
    (o : NetworkSig.Op) → NetworkChoice → Option (NetworkSig.Ans o × Network)
  | .getXMLDesc _, c =>
    match c.fault with
    | some code => some (.error (.libvirt (.other code)), network)
    | none => some (.ok (.doc network), network)
  | .update cmd parentIndex host _, c =>
    match c.fault with
    | some code => some (.error (.libvirt (.other code)), network)
    | none =>
      match network.update cmd parentIndex host with
      | none => some (.error (.libvirt (.other 55)), network)
      | some network' => some (.ok (), network')
  | .getDHCPLeases, c =>
    match c.fault with
    | some code => some (.error (.libvirt (.other code)), network)
    | none => some (.ok c.leases, network)
  | .hang, _ => none

/-- What the calls mean, over every choice of the environment. -/
def networkSem : Sem NetworkSig Network := Prog.semOf networkStep

theorem networkSem_getXMLDesc {network network' : Network} {flags : ℕ}
    {r : Except GoError NetworkXML} :
    networkSem network (.getXMLDesc flags) r network' ↔
      network' = network
        ∧ ((∃ code, r = .error (.libvirt (.other code))) ∨ r = .ok (.doc network)) := by
  constructor
  · rintro ⟨c, hc⟩
    cases hf : c.fault with
    | some code =>
      simp only [networkStep, hf] at hc
      cases hc
      exact ⟨rfl, Or.inl ⟨code, rfl⟩⟩
    | none =>
      simp only [networkStep, hf] at hc
      cases hc
      exact ⟨rfl, Or.inr rfl⟩
  · rintro ⟨rfl, ⟨code, rfl⟩ | rfl⟩
    · exact ⟨{ fault := some code }, rfl⟩
    · exact ⟨{}, rfl⟩

theorem networkSem_update {network network' : Network} {cmd : NetworkUpdateCommand}
    {parentIndex flags : ℕ} {host : NetworkDHCPHost} {r : Except GoError Unit} :
    networkSem network (.update cmd parentIndex host flags) r network' →
      (∃ code, r = .error (.libvirt (.other code))) ∧ network' = network
      ∨ r = .ok () ∧ network.update cmd parentIndex host = some network' := by
  rintro ⟨c, hc⟩
  cases hf : c.fault with
  | some code =>
    simp only [networkStep, hf] at hc
    cases hc
    exact Or.inl ⟨⟨code, rfl⟩, rfl⟩
  | none =>
    cases hn : network.update cmd parentIndex host with
    | none =>
      simp only [networkStep, hf, hn] at hc
      cases hc
      exact Or.inl ⟨⟨55, rfl⟩, rfl⟩
    | some n =>
      simp only [networkStep, hf, hn] at hc
      cases hc
      exact Or.inr ⟨rfl, rfl⟩

theorem networkSem_getDHCPLeases {network network' : Network}
    {r : Except GoError (List NetworkDHCPLease)}
    (h : networkSem network .getDHCPLeases r network') : network' = network := by
  obtain ⟨c, hc⟩ := h
  cases hf : c.fault with
  | some code =>
    simp only [networkStep, hf] at hc
    cases hc
    rfl
  | none =>
    simp only [networkStep, hf] at hc
    cases hc
    rfl

/-- No call on a network changes more of it than host entries. -/
theorem networkSem_shape {network network' : Network} {o : NetworkOp} {r : NetworkSig.Ans o}
    (h : networkSem network o r network') : network'.shape = network.shape := by
  cases o with
  | getXMLDesc flags => rw [(networkSem_getXMLDesc.mp h).1]
  | getDHCPLeases => rw [networkSem_getDHCPLeases h]
  | hang => exact r.elim
  | update cmd parentIndex host flags =>
    rcases networkSem_update h with ⟨-, rfl⟩ | ⟨-, hu⟩
    · rfl
    · exact Network.shape_update hu

end LibvirtProvider

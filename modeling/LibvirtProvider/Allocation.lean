import LibvirtProvider.Candidates
import LibvirtProvider.Reservation

/-!
# Allocation: the probe order

A machine's address is searched for in the candidates, from the one its name
hashes to and round the list. The order of that search is the list rotated
(`probeOrder`), so that every candidate is probed exactly once, and what is
returned is the first one that is vacant for the MAC
(`allocateMachineIPIn_ok_iff`). For host entries with distinct addresses that
is the first candidate not bound to another MAC
(`allocateMachineIPIn_correct`).

The candidates are all addresses of the range, or the highest usable ones of
the subnet. The address the network itself has on the host is not left out:
it is never handed out exactly when it is not a candidate
(`ownAddress_kept_iff`).
-/

namespace LibvirtProvider

/-! ## The probe order -/

section Probe

variable {α β : Type}

/-- The positions `o`, `o + 1`, … round a list are the list rotated. -/
theorem map_getD_range_eq_rotate (l : List α) (o : ℕ) (d : α) :
    (List.range l.length).map (fun i => l.getD ((o + i) % l.length) d) = l.rotate o := by
  refine List.ext_getElem (by simp) fun i hi hi' => ?_
  rw [List.length_map, List.length_range] at hi
  rw [List.getElem_map, List.getElem_range, List.getElem_rotate, Nat.add_comm o i,
    List.getD_eq_getElem _ _ (Nat.mod_lt _ (by omega))]

/-- Searching for the image of an element is searching for the element. -/
theorem findSome?_ite (p : α → Bool) (f : α → β) (l : List α) :
    l.findSome? (fun a => if p a then some (f a) else none) = (l.find? p).map f := by
  induction l with
  | nil => rfl
  | cons a l ih =>
    rw [List.findSome?_cons, List.find?_cons]
    cases p a
    · exact ih
    · rfl

end Probe

/-- **The order in which a machine's candidates are probed**: from the one its
name hashes to, round the list. The loop of the source computes positions; as
a list it can be split at the candidate that is found. -/
def probeOrder (candidates : List UInt32) (domainName : String) : List UInt32 :=
  candidates.rotate (hashDomainName domainName).toNat

/-- **The allocator searches the probe order.** The index arithmetic of the
loop is gone from here on. -/
theorem allocateMachineIPIn_eq {network : Network} {candidates : List UInt32}
    (hcand : (allocationCandidates network).run = some (.ok candidates)) (hne : candidates ≠ [])
    (domainName mac : String) :
    (allocateMachineIPIn network domainName mac).run = some
      (match (probeOrder candidates domainName).find?
          (fun c => candidateFree (hostIPSet network) mac (formatIPv4 c)) with
        | some c => .ok (formatIPv4 c)
        | none => .error (.text ("no free address in the machine reservation block of the "
            ++ s!"network (name {domainName})"))) := by
  obtain ⟨a, n, hmap, hn⟩ := allocationCandidates_consecutive hcand
  have hlen : candidates.length = n := by
    rw [← List.length_map, hmap, List.length_range']
  -- the offset is computed in 64 bits, which is enough
  have hoffset : (hashDomainName domainName % candidates.length.toUInt64).toNat
      = (hashDomainName domainName).toNat % candidates.length := by
    rw [UInt64.toNat_mod]
    congr 1
    exact Nat.mod_eq_of_lt (by omega)
  unfold allocateMachineIPIn
  rw [ExceptT.run_bind, hcand]
  change (if candidates.length = 0 then _ else _ : GoComp String).run = _
  rw [if_neg (by simpa using hne)]
  have hfound : (List.range candidates.length).findSome? (fun i =>
      let ip := formatIPv4 (candidates.getD
        (((hashDomainName domainName % candidates.length.toUInt64).toNat + i)
          % candidates.length) 0)
      if candidateFree (hostIPSet network) mac ip then some ip else none)
      = ((probeOrder candidates domainName).find?
          fun c => candidateFree (hostIPSet network) mac (formatIPv4 c)).map formatIPv4 := by
    rw [← findSome?_ite, probeOrder, ← List.rotate_mod, ← hoffset,
      ← map_getD_range_eq_rotate _ _ 0, List.findSome?_map]
    rfl
  dsimp only at hfound ⊢
  rw [hfound]
  cases (probeOrder candidates domainName).find? _ <;> rfl

/-- Two host entries that do not bind one address. -/
def AddressesDiffer (e f : NetworkDHCPHost) : Prop := e.ip ≠ "" → e.ip ≠ f.ip

instance : Std.Symm AddressesDiffer :=
  ⟨fun _ _ h hf heq => h (heq ▸ hf) heq.symm⟩

/-- **Host entries with distinct addresses, each in its canonical form**: an
IPv4 address is written the way `formatIPv4` writes it. The allocator compares
texts, so without the second part an address could be bound and not be found. -/
structure DistinctAddresses (hosts : List NetworkDHCPHost) : Prop where
  distinct : hosts.Pairwise AddressesDiffer
  canonical : ∀ e ∈ hosts, ∀ n, addressNumber e.ip = some n → e.ip = formatIPv4 n

/-- **A host entry binds the address to another MAC.** This is about addresses
as numbers, and does not mention the map that the code consults. -/
def BoundElsewhere (hosts : List NetworkDHCPHost) (mac : String) (c : UInt32) : Prop :=
  ∃ e ∈ hosts, addressNumber e.ip = some c ∧ foldKey e.mac ≠ foldKey mac

theorem DistinctAddresses.vacant_iff {hosts : List NetworkDHCPHost} (h : DistinctAddresses hosts)
    {mac : String} {c : UInt32} :
    Vacant hosts mac (formatIPv4 c) ↔ ¬ BoundElsewhere hosts mac c := by
  constructor
  · rintro hvac ⟨e, he, haddr, hmac⟩
    have hip := h.canonical e he c haddr
    obtain ⟨f, hf⟩ := exists_lastOwner he hip
    obtain ⟨hfmem, hfip⟩ := mem_of_lastOwner hf
    -- the entry and the last owner of its address are one
    have hef : e = f := by
      by_contra hne
      exact h.distinct.forall he hfmem hne (hip ▸ formatIPv4_ne_empty c) (hip.trans hfip.symm)
    exact hmac (hef ▸ hvac f hf)
  · intro hfree e he
    obtain ⟨hmem, hip⟩ := mem_of_lastOwner he
    by_contra hmac
    exact hfree ⟨e, hmem, hip ▸ addressNumber_formatIPv4 c, hmac⟩

theorem DistinctAddresses.perm {hosts hosts' : List NetworkDHCPHost} (h : DistinctAddresses hosts)
    (hperm : hosts'.Perm hosts) : DistinctAddresses hosts' :=
  ⟨(hperm.pairwise_iff fun hd => Std.Symm.symm _ _ hd).mpr h.distinct,
    fun e he => h.canonical e (hperm.subset he)⟩

/-- Round a list of length `n`, every position is reached exactly once. -/
theorem existsUnique_probe {n o k : ℕ} (hk : k < n) : ∃! j, j < n ∧ (o % n + j) % n = k := by
  have ho := Nat.mod_lt o (Nat.zero_lt_of_lt hk)
  generalize o % n = o' at ho ⊢
  by_cases h : o' ≤ k
  · refine ⟨k - o', ⟨by omega, ?_⟩, ?_⟩
    · rw [Nat.add_sub_cancel' h, Nat.mod_eq_of_lt hk]
    · rintro j ⟨hj, hjk⟩
      by_cases hw : o' + j < n
      · rw [Nat.mod_eq_of_lt hw] at hjk
        omega
      · rw [Nat.mod_eq_sub_mod (by omega), Nat.mod_eq_of_lt (by omega)] at hjk
        omega
  · refine ⟨k + n - o', ⟨by omega, ?_⟩, ?_⟩
    · show (o' + (k + n - o')) % n = k
      rw [show o' + (k + n - o') = k + n by omega, Nat.add_mod_right, Nat.mod_eq_of_lt hk]
    · rintro j ⟨hj, hjk⟩
      by_cases hw : o' + j < n
      · rw [Nat.mod_eq_of_lt hw] at hjk
        omega
      · rw [Nat.mod_eq_sub_mod (by omega), Nat.mod_eq_of_lt (by omega)] at hjk
        omega

section Correct

variable {network : Network} {candidates : List UInt32}
  (hcand : (allocationCandidates network).run = some (.ok candidates)) (hne : candidates ≠ [])
  (domainName mac : String)

/-- The candidate at a probe. -/
theorem getElem?_probeOrder {j : ℕ} (hj : j < candidates.length) :
    (probeOrder candidates domainName)[j]?
      = candidates[((hashDomainName domainName).toNat % candidates.length + j)
          % candidates.length]? := by
  rw [probeOrder, List.getElem?_rotate hj, Nat.mod_add_mod, Nat.add_comm]

theorem mem_probeOrder {c : UInt32} : c ∈ probeOrder candidates domainName ↔ c ∈ candidates :=
  List.mem_rotate

include hcand hne

/-- The allocator fails when no candidate is vacant. -/
theorem allocateMachineIPIn_error_iff :
    (∃ err, (allocateMachineIPIn network domainName mac).run = some (.error err))
      ↔ ∀ c ∈ candidates, ¬ Vacant network.hosts mac (formatIPv4 c) := by
  rw [allocateMachineIPIn_eq hcand hne]
  cases hfind : (probeOrder candidates domainName).find? _ with
  | some c =>
    refine iff_of_false (by simp) fun hall => ?_
    have hfree := List.find?_some hfind
    rw [candidateFree_iff_vacant (formatIPv4_ne_empty c)] at hfree
    exact hall c ((mem_probeOrder domainName).mp (List.mem_of_find?_eq_some hfind)) hfree
  | none =>
    refine iff_of_true ⟨_, rfl⟩ fun c hc hvac => ?_
    rw [List.find?_eq_none] at hfind
    exact hfind c ((mem_probeOrder domainName).mpr hc)
      ((candidateFree_iff_vacant (formatIPv4_ne_empty c)).mpr hvac)

end Correct

/-- **The first candidate of a machine's probe order that is vacant** for its
MAC: every one probed before is bound to another MAC. -/
def FirstVacant (hosts : List NetworkDHCPHost) (candidates : List UInt32)
    (domainName mac : String) (c : UInt32) : Prop :=
  ∃ pre post, probeOrder candidates domainName = pre ++ c :: post
    ∧ (∀ x ∈ pre, ¬ Vacant hosts mac (formatIPv4 x)) ∧ Vacant hosts mac (formatIPv4 c)

/-- The search for it. -/
theorem find?_candidateFree_eq_some {network : Network} {candidates : List UInt32}
    {domainName mac : String} {c : UInt32} :
    (probeOrder candidates domainName).find?
        (fun c => candidateFree (hostIPSet network) mac (formatIPv4 c)) = some c
      ↔ FirstVacant network.hosts candidates domainName mac c := by
  rw [List.find?_eq_some_iff_append, candidateFree_iff_vacant (formatIPv4_ne_empty c)]
  unfold FirstVacant
  simp only [Bool.not_eq_true', ← Bool.not_eq_true,
    candidateFree_iff_vacant (formatIPv4_ne_empty _)]
  constructor
  · rintro ⟨hvac, pre, post, horder, hpre⟩
    exact ⟨pre, post, horder, hpre, hvac⟩
  · rintro ⟨pre, post, horder, hpre, hvac⟩
    exact ⟨hvac, pre, post, horder, hpre⟩

/-- **What the allocator returns is the first vacant candidate.** Nothing is
assumed of the entries here; what being vacant is worth depends on them. -/
theorem allocateMachineIPIn_ok_iff {network : Network} {candidates : List UInt32}
    (hcand : (allocationCandidates network).run = some (.ok candidates))
    {domainName mac ip : String} :
    (allocateMachineIPIn network domainName mac).run = some (.ok ip)
      ↔ ∃ c, FirstVacant network.hosts candidates domainName mac c ∧ ip = formatIPv4 c := by
  by_cases hne : candidates = []
  · subst hne
    refine iff_of_false (fun h => ?_) ?_
    · obtain ⟨_, hcand', ⟨c, hc, -⟩, -⟩ := allocateMachineIPIn_spec h
      rw [hcand] at hcand'
      cases hcand'
      cases hc
    · rintro ⟨c, ⟨pre, post, horder, -⟩, -⟩
      simp [probeOrder] at horder
  · rw [allocateMachineIPIn_eq hcand hne]
    simp only [← find?_candidateFree_eq_some]
    cases (probeOrder candidates domainName).find? _ with
    | none => simp
    | some c => simp [eq_comm]

/-- **Allocator correctness.** For host entries with distinct addresses the
allocator fails exactly when every candidate is bound to another MAC, and
otherwise returns the candidate at the first probe that is not. The probes
stay in range and reach every candidate once; the order of the host entries
is of no account. -/
theorem allocateMachineIPIn_correct {network : Network} {candidates : List UInt32}
    (hcand : (allocationCandidates network).run = some (.ok candidates)) (hne : candidates ≠ [])
    (hhosts : DistinctAddresses network.hosts) (domainName mac : String) :
    ((∃ err, (allocateMachineIPIn network domainName mac).run = some (.error err))
      ↔ ∀ c ∈ candidates, BoundElsewhere network.hosts mac c)
    ∧ ((∃ c ∈ candidates, ¬ BoundElsewhere network.hosts mac c) →
      ∃ j < candidates.length, ∃ c,
        candidates[((hashDomainName domainName).toNat % candidates.length + j)
          % candidates.length]? = some c
        ∧ ¬ BoundElsewhere network.hosts mac c
        ∧ (∀ i < j, ∀ x, candidates[((hashDomainName domainName).toNat % candidates.length + i)
            % candidates.length]? = some x → BoundElsewhere network.hosts mac x)
        ∧ (allocateMachineIPIn network domainName mac).run = some (.ok (formatIPv4 c)))
    ∧ candidates.Nodup
    ∧ (∀ j, ((hashDomainName domainName).toNat % candidates.length + j) % candidates.length
        < candidates.length)
    ∧ (∀ k < candidates.length, ∃! j, j < candidates.length
        ∧ ((hashDomainName domainName).toNat % candidates.length + j) % candidates.length = k)
    ∧ ∀ network' : Network, allocationCandidates network' = allocationCandidates network →
        network'.hosts.Perm network.hosts →
        (allocateMachineIPIn network' domainName mac).run
          = (allocateMachineIPIn network domainName mac).run := by
  have hlen := List.length_pos_iff.mpr hne
  have hvac : ∀ c, Vacant network.hosts mac (formatIPv4 c) ↔ ¬ BoundElsewhere network.hosts mac c :=
    fun c => hhosts.vacant_iff
  refine ⟨?_, ?_, ?_, fun j => Nat.mod_lt _ hlen, fun k hk => existsUnique_probe hk, ?_⟩
  · rw [allocateMachineIPIn_error_iff hcand hne]
    simp only [hvac, not_not]
  · rintro ⟨x, hx, hfree⟩
    rw [allocateMachineIPIn_eq hcand hne]
    cases hfind : (probeOrder candidates domainName).find? _ with
    | none =>
      rw [List.find?_eq_none] at hfind
      exact absurd ((candidateFree_iff_vacant (formatIPv4_ne_empty x)).mpr ((hvac x).mpr hfree))
        (hfind x ((mem_probeOrder domainName).mpr hx))
    | some c =>
      obtain ⟨hc, j, hj, rfl, hbefore⟩ := List.find?_eq_some_iff_getElem.mp hfind
      rw [probeOrder, List.length_rotate] at hj
      refine ⟨j, hj, _, ?_, ?_, fun i hi y hy => ?_, rfl⟩
      · rw [← getElem?_probeOrder domainName hj, List.getElem?_eq_getElem]
      · rwa [candidateFree_iff_vacant (formatIPv4_ne_empty _), hvac] at hc
      · rw [← getElem?_probeOrder domainName (hi.trans hj)] at hy
        obtain ⟨hi', rfl⟩ := List.getElem?_eq_some_iff.mp hy
        have hno := hbefore i hi
        rw [Bool.not_eq_true', ← Bool.not_eq_true,
          candidateFree_iff_vacant (formatIPv4_ne_empty _), hvac, not_not] at hno
        exact hno
  · obtain ⟨a, n, hmap, -⟩ := allocationCandidates_consecutive hcand
    exact (pairwise_lt_of_map_toNat hmap).imp fun h => UInt32.ne_of_lt h
  · intro network' hcand' hperm
    rw [allocateMachineIPIn_eq hcand hne, allocateMachineIPIn_eq (hcand' ▸ hcand) hne]
    have hsame : ∀ c, candidateFree (hostIPSet network') mac (formatIPv4 c)
        = candidateFree (hostIPSet network) mac (formatIPv4 c) := by
      intro c
      rw [Bool.eq_iff_iff, candidateFree_iff_vacant (formatIPv4_ne_empty c),
        candidateFree_iff_vacant (formatIPv4_ne_empty c), hvac, (hhosts.perm hperm).vacant_iff]
      unfold BoundElsewhere
      simp only [hperm.mem_iff]
    simp only [hsame]

/-- A network of two usable addresses, without a DHCP range, with the host
entries given. -/
def smallNetwork (hosts : List NetworkDHCPHost) : Network :=
  ⟨[{ address := "192.168.122.1", family := "inet", netmask := "255.255.255.252",
      prefixLength := 0, dhcp := some ⟨[], hosts⟩ }]⟩

theorem allocationCandidates_smallNetwork (hosts : List NetworkDHCPHost) :
    (allocationCandidates (smallNetwork hosts)).run = some (.ok [0xC0A87A01, 0xC0A87A02]) := by
  have hhosts : allocationCandidates (smallNetwork hosts)
      = allocationCandidates (smallNetwork []) := rfl
  rw [hhosts]
  decide +kernel

theorem allocateMachineIPIn_correct_exhausted :
    ∃ err, (allocateMachineIPIn (smallNetwork [⟨"de:ad:be:ef:00:01", "m1", "192.168.122.1"⟩,
        ⟨"DE:AD:BE:EF:00:02", "m2", "192.168.122.2"⟩]) "machine-a"
        (deriveDomainMAC "machine-a")).run = some (.error err) := by
  have haddr : addressNumber "192.168.122.1" = some 0xC0A87A01
      ∧ addressNumber "192.168.122.2" = some 0xC0A87A02 := by decide +kernel
  have hformat : formatIPv4 0xC0A87A01 = "192.168.122.1"
      ∧ formatIPv4 0xC0A87A02 = "192.168.122.2" := by decide +kernel
  have hmac : foldKey "de:ad:be:ef:00:01" ≠ foldKey (deriveDomainMAC "machine-a")
      ∧ foldKey "DE:AD:BE:EF:00:02" ≠ foldKey (deriveDomainMAC "machine-a") := by decide +kernel
  refine (allocateMachineIPIn_correct (allocationCandidates_smallNetwork _) (by simp) ?_ _ _).1.mpr
    ?_
  · constructor
    · simp [smallNetwork, Network.hosts, NetworkIP.hosts, AddressesDiffer]
    · simp [smallNetwork, Network.hosts, NetworkIP.hosts, haddr, hformat]
  · simp [smallNetwork, Network.hosts, NetworkIP.hosts, BoundElsewhere, haddr, hmac]

/-! ## The network's own address -/

/-- **The address of the network itself**, on the host: the address attribute
of the `<ip>` element that the candidates come from. -/
def Network.ownAddress (network : Network) : Option UInt32 :=
  (network.ips.find? fun ip => ip.family == "inet").bind fun ip => addressNumber ip.address

theorem ownAddress_shape (network : Network) :
    Network.ownAddress ⟨network.shape⟩ = network.ownAddress := by
  unfold Network.ownAddress
  rw [find?_shape]
  cases network.ips.find? fun ip => ip.family == "inet" <;> rfl

/-- **Every other candidate taken**: the host entries that bind all candidates
but one. With these any candidate at all can be made the one that is handed
out. -/
def takenBut (a : UInt32) (candidates : List UInt32) (mac : String) : List NetworkDHCPHost :=
  (candidates.filter (· != a)).map fun c => ⟨mac, formatIPv4 c, formatIPv4 c⟩

/-- The network with the same host entries in every element. -/
def Network.withHosts (network : Network) (hosts : List NetworkDHCPHost) : Network :=
  ⟨network.ips.map fun ip => ip.withHosts hosts⟩

theorem Network.shape_withHosts (network : Network) (hosts : List NetworkDHCPHost) :
    (network.withHosts hosts).shape = network.shape := by
  simp only [Network.shape, Network.withHosts, List.map_map]
  rfl

theorem Network.mem_hosts_withHosts {network : Network} {hosts : List NetworkDHCPHost}
    {e : NetworkDHCPHost} (hne : network.ips ≠ []) :
    e ∈ (network.withHosts hosts).hosts ↔ e ∈ hosts := by
  rw [Network.hosts, Network.withHosts, List.flatMap_map, List.mem_flatMap]
  constructor
  · rintro ⟨ip, -, he⟩
    exact he
  · intro he
    obtain ⟨ip, hip⟩ := List.exists_mem_of_ne_nil _ hne
    exact ⟨ip, hip, he⟩

section OwnAddress

variable {network : Network} {candidates : List UInt32} {a : UInt32}

/-- Where a candidate is the only one left, every machine is given it. -/
theorem allocateMachineIPIn_takenBut (hne : network.ips ≠ [])
    (hcand : (allocationCandidates network).run = some (.ok candidates)) (ha : a ∈ candidates)
    (domainName : String) {mac other : String} (hmac : foldKey other ≠ foldKey mac) :
    (allocateMachineIPIn (network.withHosts (takenBut a candidates other)) domainName mac).run
      = some (.ok (formatIPv4 a)) := by
  let network' := network.withHosts (takenBut a candidates other)
  have hcand' : (allocationCandidates network').run = some (.ok candidates) := by
    rw [← allocationCandidates_shape, Network.shape_withHosts, allocationCandidates_shape, hcand]
  have hmem : ∀ e ∈ network'.hosts, e.mac = other ∧ ∃ c ≠ a, e.ip = formatIPv4 c := by
    intro e he
    obtain ⟨c, hc, rfl⟩ := List.mem_map.mp ((Network.mem_hosts_withHosts hne).mp he)
    exact ⟨rfl, c, by simpa using (List.mem_filter.mp hc).2, rfl⟩
  obtain ⟨pre, post, horder, hpre⟩ :=
    List.eq_append_cons_of_mem ((mem_probeOrder domainName).mpr ha)
  refine (allocateMachineIPIn_ok_iff hcand').mpr ⟨a, ⟨pre, post, horder, ?_, ?_⟩, rfl⟩
  · intro x hx hvac
    have hxc : x ∈ candidates := by
      rw [← mem_probeOrder domainName, horder]
      exact List.mem_append_left _ hx
    have hentry : (⟨other, formatIPv4 x, formatIPv4 x⟩ : NetworkDHCPHost) ∈ network'.hosts :=
      (Network.mem_hosts_withHosts hne).mpr (List.mem_map.mpr ⟨x, List.mem_filter.mpr
        ⟨hxc, by simpa using fun heq : x = a => hpre (heq ▸ hx)⟩, rfl⟩)
    obtain ⟨e, he⟩ := exists_lastOwner hentry rfl
    exact hmac ((hmem e (mem_of_lastOwner he).1).1 ▸ hvac e he)
  · intro e he
    obtain ⟨hin, hip⟩ := mem_of_lastOwner he
    obtain ⟨-, c, hca, hc⟩ := hmem e hin
    exact absurd (formatIPv4_injective (hc.symm.trans hip)) hca

/-- **When the network's own address is never handed out**: whatever the host
entries, the name and the MAC are, exactly when it is not a candidate. The
code has no check of its own for it. -/
theorem ownAddress_kept_iff
    (hcand : (allocationCandidates network).run = some (.ok candidates)) :
    (∀ network' : Network, network'.shape = network.shape → ∀ domainName mac ip,
      (allocateMachineIPIn network' domainName mac).run = some (.ok ip) →
        addressNumber ip ≠ network'.ownAddress)
      ↔ ∀ a, network.ownAddress = some a → a ∉ candidates := by
  constructor
  · intro h a hown ha
    have hne : network.ips ≠ [] := by
      intro hnil
      simp [Network.ownAddress, hnil] at hown
    refine h _ (network.shape_withHosts _) "node" "02:00:00:00:00:01" _
      (allocateMachineIPIn_takenBut hne hcand ha "node"
        (show foldKey "02:00:00:00:00:02" ≠ _ by decide)) ?_
    rw [addressNumber_formatIPv4, ← ownAddress_shape, Network.shape_withHosts, ownAddress_shape,
      hown]
  · intro h network' hshape domainName mac ip hip hown
    obtain ⟨candidates', hcand', ⟨c, hc, rfl⟩, -⟩ := allocateMachineIPIn_spec hip
    rw [← allocationCandidates_shape, hshape, allocationCandidates_shape, hcand] at hcand'
    cases hcand'
    rw [addressNumber_formatIPv4, ← ownAddress_shape, hshape, ownAddress_shape] at hown
    exact h c hown.symm hc

end OwnAddress

theorem ownAddress_kept_range :
    (oneAddressNetwork []).ownAddress = some 0xC0A87A01
    ∧ ∀ network' : Network, network'.shape = (oneAddressNetwork []).shape →
      ∀ domainName mac ip, (allocateMachineIPIn network' domainName mac).run = some (.ok ip) →
        addressNumber ip ≠ network'.ownAddress := by
  have hown : (oneAddressNetwork []).ownAddress = some 0xC0A87A01 := by decide +kernel
  refine ⟨hown, (ownAddress_kept_iff (allocationCandidates_oneAddressNetwork [])).mpr ?_⟩
  rw [hown]
  simp

/-- In a network of two usable addresses a machine can be given the one of
the bridge. -/
theorem ownAddress_handed_out :
    (allocateMachineIPIn (smallNetwork []) "default-node-2" (deriveDomainMAC "default-node-2")).run
      = some (.ok "192.168.122.1")
    ∧ addressNumber "192.168.122.1" = (smallNetwork []).ownAddress := by
  decide +kernel

end LibvirtProvider

import LibvirtProvider.HostEntries

/-!
# The networks libvirt emits

The form of a network description as libvirt writes it: the `family` of an
`<ip>` element is absent or `ipv4` on an IPv4 element and `ipv6` on an IPv6
one, and the subnet is given by `netmask` or by `prefix`, not by both. The
host setup asks for a network with an IPv4 subnet and DHCP, for example the
`default` one, and nothing else of it.

`allocationCandidates` looks for the family `inet`, which libvirt does not
write. So there is no network in this form that it accepts
(`allocationCandidates_emitted`), and no machine gets an address in one.
-/

namespace LibvirtProvider

namespace NetworkIP

/-- An IPv4 element. -/
def IsIPv4 (ip : NetworkIP) : Prop := ip.family = "" ∨ ip.family = "ipv4"

instance (ip : NetworkIP) : Decidable ip.IsIPv4 := inferInstanceAs (Decidable (_ ∨ _))

/-- The prefix length of the subnet, from whichever attribute gives it. The
provider reads `netmask` only, so this is what an element means and not what
the code makes of it. -/
def subnetLength (ip : NetworkIP) : Option ℕ :=
  if ip.netmask = "" then some ip.prefixLength
  else ((parseIP ip.netmask).bind to4).bind simpleMaskLength

/-- The addresses of the element's subnet. -/
def Contains (ip : NetworkIP) (n : UInt32) : Prop :=
  ∃ address length, (parseIP ip.address).bind to4 = some address
    ∧ ip.subnetLength = some length
    ∧ n.toNat / 2 ^ (32 - length) = (bigEndianUint32 address).toNat / 2 ^ (32 - length)

/-- **An `<ip>` element in the form libvirt emits.** The ranges are taken as
libvirt checks them when a network is defined: both ends in the subnet and in
order, so that no odd range is to blame for what follows. -/
structure Emitted (ip : NetworkIP) : Prop where
  family : ip.family = "" ∨ ip.family = "ipv4" ∨ ip.family = "ipv6"
  subnet : ip.netmask = "" ∨ ip.prefixLength = 0
  ranges : ip.IsIPv4 → ∀ dhcp, ip.dhcp = some dhcp → ∀ range ∈ dhcp.ranges,
    ∃ first last, (parseIP range.start).bind to4 = some first
      ∧ (parseIP range.end_).bind to4 = some last
      ∧ bigEndianUint32 first ≤ bigEndianUint32 last
      ∧ ip.Contains (bigEndianUint32 first) ∧ ip.Contains (bigEndianUint32 last)

/-- An IPv4 element with a subnet of a usable size: what the host setup asks
for, as far as it can be read off the element. -/
def Usable (ip : NetworkIP) : Prop :=
  ip.IsIPv4 ∧ ((parseIP ip.address).bind to4).isSome
    ∧ ∃ length, ip.subnetLength = some length ∧ 8 ≤ length ∧ length ≤ 30

end NetworkIP

/-- **A network is accepted**: there are candidates, all of them in the
subnet of the first IPv4 element. -/
def Network.Accepted (network : Network) : Prop :=
  ∃ candidates, (allocationCandidates network).run = some (.ok candidates)
    ∧ candidates ≠ []
    ∧ ∃ ip, network.ips.find? (fun ip => ip.IsIPv4) = some ip ∧ ∀ c ∈ candidates, ip.Contains c

/-- Whatever else a network in libvirt's form has, it has no candidates. -/
theorem allocationCandidates_emitted {network : Network}
    (h : ∀ ip ∈ network.ips, ip.Emitted) :
    (allocationCandidates network).run
      = some (.error (.text "network has no IPv4 subnet")) := by
  have hnone : network.ips.find? (fun ip => ip.family == "inet") = none := by
    rw [List.find?_eq_none]
    intro ip hip
    rcases (h ip hip).family with hf | hf | hf <;> rw [hf] <;> decide
  rw [allocationCandidates, hnone]
  rfl

/-- A network without candidates gives no address. -/
theorem allocateMachineIPIn_error {network : Network} {err : GoError}
    (h : (allocationCandidates network).run = some (.error err)) (domainName mac : String) :
    (allocateMachineIPIn network domainName mac).run = some (.error err) := by
  rw [allocateMachineIPIn, ExceptT.run_bind, h]
  rfl

/-- **No network libvirt emits is accepted**, however usable its IPv4 subnet,
and the allocator fails for every machine. The family the code looks for is
spelt `inet`, and libvirt leaves it out or writes `ipv4`. -/
theorem no_emitted_network_accepted {network : Network}
    (hform : ∀ ip ∈ network.ips, ip.Emitted) :
    ¬ network.Accepted
    ∧ ∀ domainName mac, (allocateMachineIPIn network domainName mac).run
        = some (.error (.text "network has no IPv4 subnet")) := by
  have hcand := allocationCandidates_emitted hform
  refine ⟨?_, allocateMachineIPIn_error hcand⟩
  rintro ⟨candidates, hok, -⟩
  rw [hcand] at hok
  cases hok

/-- A network with an IPv6 and an IPv4 element, the subnets given by
prefix. -/
def dualStackNetwork : Network :=
  ⟨[{ address := "fd00::1", family := "ipv6", netmask := "", prefixLength := 64, dhcp := none },
    { address := "10.1.0.1", family := "ipv4", netmask := "", prefixLength := 16,
      dhcp := none }]⟩

theorem dualStackNetwork_not_accepted :
    (∃ ip ∈ dualStackNetwork.ips, ip.Usable) ∧ ¬ dualStackNetwork.Accepted := by
  refine ⟨⟨_, List.mem_cons_of_mem _ (List.mem_singleton_self _), Or.inr rfl, by decide +kernel,
    16, rfl, by decide, by decide⟩, (no_emitted_network_accepted ?_).1⟩
  intro ip hip
  rcases List.mem_pair.mp hip with rfl | rfl
  · exact ⟨Or.inr (Or.inr rfl), Or.inl rfl, fun _ dhcp hdhcp => nomatch hdhcp⟩
  · exact ⟨Or.inr (Or.inl rfl), Or.inl rfl, fun _ dhcp hdhcp => nomatch hdhcp⟩

/-- libvirt's `default` NAT network. -/
def defaultNetwork : Network :=
  ⟨[{ address := "192.168.122.1", family := "", netmask := "255.255.255.0", prefixLength := 0,
      dhcp := some ⟨[⟨"192.168.122.2", "192.168.122.254"⟩], []⟩ }]⟩

/-- The `default` network is in libvirt's form, is usable, and has no
candidates for the provider. -/
theorem defaultNetwork_not_accepted :
    (∀ ip ∈ defaultNetwork.ips, ip.Emitted) ∧ (∃ ip ∈ defaultNetwork.ips, ip.Usable)
    ∧ (allocationCandidates defaultNetwork).run
        = some (.error (.text "network has no IPv4 subnet"))
    ∧ ¬ defaultNetwork.Accepted := by
  have hcand : (allocationCandidates defaultNetwork).run
      = some (.error (.text "network has no IPv4 subnet")) := by decide +kernel
  refine ⟨?_, ⟨_, List.mem_singleton_self _, Or.inl rfl, by decide +kernel, 24,
    by decide +kernel, by decide, by decide⟩, hcand, ?_⟩
  · intro ip hip
    obtain rfl := List.mem_singleton.mp hip
    refine ⟨Or.inl rfl, Or.inr rfl, fun _ dhcp hdhcp range hrange => ?_⟩
    cases hdhcp
    obtain rfl := List.mem_singleton.mp hrange
    exact ⟨[192, 168, 122, 2], [192, 168, 122, 254], by decide +kernel, by decide +kernel,
      by decide, ⟨[192, 168, 122, 1], 24, by decide +kernel, by decide +kernel, by decide⟩,
      [192, 168, 122, 1], 24, by decide +kernel, by decide +kernel, by decide⟩
  · rintro ⟨candidates, hok, -⟩
    rw [hcand] at hok
    cases hok

end LibvirtProvider

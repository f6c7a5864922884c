import LibvirtProvider.IPAddr
import LibvirtProvider.Interaction

/-!
# Machine networking: MACs, candidates and DHCP reservations

The model of the provider's `machine_network.go`. A machine's MAC address is
derived from its domain name; its IP address is picked from the network's
candidates, starting at an offset that is also derived from the name; and the
two are bound together by a static DHCP host entry, added to the network's
definition when the machine is created and removed when it is deleted.

What the code computes from a parsed network is a function here. It can do
one thing a Lean function cannot: a counting loop over 32-bit numbers that
ends at the largest one never ends. `GoComp` keeps that apart from an error:
`none` is a computation that does not return.

What the code does to a network goes through the interface
`networkOperations`, so `reserveMachineIP` and `releaseMachineIP` are programs
over that signature: they read the definition, and then make at most one
update. Between the two calls anything can happen.
-/

namespace LibvirtProvider

open Interaction

/-! ## The parsed network -/

/-- `libvirtxml.NetworkDHCPRange`. -/
structure NetworkDHCPRange where
  start : String
  end_ : String
  deriving DecidableEq, Repr

/-- `libvirtxml.NetworkDHCPHost`: a static host entry. It binds a MAC to an
address, and carries the name of the domain it was made for; all three matter,
since libvirt finds entries by MAC or name and the provider by MAC only. -/
structure NetworkDHCPHost where
  mac : String
  name : String
  ip : String
  deriving DecidableEq, Repr

/-- `libvirtxml.NetworkDHCP`. -/
structure NetworkDHCP where
  ranges : List NetworkDHCPRange
  hosts : List NetworkDHCPHost
  deriving DecidableEq, Repr

/-- `libvirtxml.NetworkIP`: an `<ip>` element. An attribute that is absent
is empty, or zero for the prefix length. -/
structure NetworkIP where
  address : String
  family : String
  netmask : String
  prefixLength : ℕ
  dhcp : Option NetworkDHCP
  deriving DecidableEq, Repr

/-- `libvirtxml.Network`, as far as it is read: the `<ip>` elements in
document order. The order matters, because updates go to the first element
whatever element the entry or the candidates are from. -/
structure Network where
  ips : List NetworkIP
  deriving DecidableEq, Repr

/-- The host entries of an `<ip>` element. -/
def NetworkIP.hosts (ip : NetworkIP) : List NetworkDHCPHost :=
  match ip.dhcp with
  | none => []
  | some dhcp => dhcp.hosts

/-- The host entries of all `<ip>` elements, in document order. -/
def Network.hosts (network : Network) : List NetworkDHCPHost :=
  network.ips.flatMap NetworkIP.hosts

/-! ## MAC addresses -/

/-- A hexadecimal digit, in lower case. -/
def hexDigit (n : UInt8) : Char :=
  ['0', '1', '2', '3', '4', '5', '6', '7', '8', '9', 'a', 'b', 'c', 'd', 'e', 'f'].getD
    n.toNat '0'

/-- Two hexadecimal digits. -/
def hexByte (b : UInt8) : String := String.ofList [hexDigit (b >>> 4), hexDigit (b &&& 0xf)]

/-- `net.HardwareAddr.String`. -/
def hardwareAddrString (mac : List UInt8) : String := ":".intercalate (mac.map hexByte)

/-- `hashDomainName`: the 64-bit FNV-1a hash of the name's bytes. Both the MAC
of a machine and the candidate it tries first come from it. -/
def hashDomainName (domainName : String) : UInt64 :=
  domainName.toUTF8.data.toList.foldl (fun h b => (h ^^^ b.toUInt64) * 1099511628211)
    14695981039346656037

/-- `deriveDomainMAC`: libvirt's prefix and three bytes of the hash. There are
24 bits for all names, so that distinct names can have one MAC. -/
def deriveDomainMAC (domainName : String) : String :=
  let sum := hashDomainName domainName
  hardwareAddrString
    [0x52, 0x54, 0x00, sum.toUInt8, (sum >>> 8).toUInt8, (sum >>> 16).toUInt8]

theorem foldChar_hexDigit (n : UInt8) : foldChar (hexDigit n) = hexDigit n := by
  unfold hexDigit
  rw [List.getD_eq_getElem?_getD]
  have hall : ['0', '1', '2', '3', '4', '5', '6', '7', '8', '9', 'a', 'b', 'c', 'd',
      'e', 'f'].all (fun c => foldChar c == c) = true := by decide
  cases h : ['0', '1', '2', '3', '4', '5', '6', '7', '8', '9', 'a', 'b', 'c', 'd', 'e',
      'f'][n.toNat]? with
  | none => decide
  | some c => exact beq_iff_eq.mp (List.all_eq_true.mp hall c (List.mem_of_getElem? h))

/-- **Derived MACs agree up to case only if they are the same**: they are
written in lower case. -/
theorem deriveDomainMAC_eq_of_foldKey_eq {a b : String}
    (h : foldKey (deriveDomainMAC a) = foldKey (deriveDomainMAC b)) :
    deriveDomainMAC a = deriveDomainMAC b := by
  have hfix : ∀ mac, ∀ c ∈ (hardwareAddrString mac).toList, foldChar c = c := by
    intro mac
    have hcolon : ∀ c ∈ ":".toList, foldChar c = c := by
      intro c hc
      obtain rfl : c = ':' := by simpa using hc
      decide
    refine forall_mem_intercalate hcolon fun s hs c hc => ?_
    obtain ⟨x, -, rfl⟩ := List.mem_map.mp hs
    rw [hexByte, String.toList_ofList] at hc
    rcases List.mem_pair.mp hc with rfl | rfl <;> exact foldChar_hexDigit _
  exact eq_of_foldKey_eq (hfix _) (hfix _) h

theorem deriveDomainMAC_ne_empty (domainName : String) : deriveDomainMAC domainName ≠ "" := by
  intro h
  have := congrArg String.toList h
  simp [deriveDomainMAC, hardwareAddrString, hexByte] at this

-- nothing below looks into the hash
attribute [irreducible] deriveDomainMAC

/-! ## Reading the host entries -/

/-- `hostEntryInNetwork`: the first host entry bound to the MAC, in any `<ip>`
element. The name is not looked at, so the entry found may have been made for
another machine. -/
def hostEntryInNetwork (network : Network) (mac : String) : Option NetworkDHCPHost :=
  network.ips.findSome? fun ip =>
    match ip.dhcp with
    | none => none
    | some dhcp => dhcp.hosts.find? fun host => equalFold host.mac mac

/-- `hostIPSet`: the map from each configured address to the MAC bound to
it. A later entry overwrites an earlier one. -/
def hostIPSet (network : Network) : String → Option String :=
  network.ips.foldl
    (fun set ip =>
      match ip.dhcp with
      | none => set
      | some dhcp =>
        dhcp.hosts.foldl
          (fun set host => if host.ip = "" then set
            else Function.update set host.ip (some host.mac))
          set)
    (fun _ => none)

/-! ## Candidate addresses -/

/-- **A Go computation over a parsed network**: it returns a value or an
error, or it does not return. The last is kept apart from an error, since a
caller that waits for a loop without an end handles nothing. -/
abbrev GoComp (α : Type) := ExceptT GoError Option α

/-- `net.IPNet`. -/
structure IPNet where
  ip : IP
  mask : IP
  deriving DecidableEq, Repr

/-- The prefix length of a mask without holes. -/
def simpleMaskLength (mask : IP) : Option ℕ :=
  let n := (bigEndianUint32 mask).toNat
  (List.range 33).find? fun p => n = 2 ^ 32 - 2 ^ (32 - p)

/-- `net.IPNet.String`. -/
def IPNet.text (n : IPNet) : String :=
  match simpleMaskLength n.mask with
  | some p => dottedDecimal n.ip ++ "/" ++ toString p
  | none => dottedDecimal n.ip ++ "/" ++ String.join (n.mask.map hexByte)

/-- `parseSubnet`: the subnet of an address under a netmask. -/
def parseSubnet (address netmask : String) : GoComp IPNet :=
  match parseIP address with
  | none => throw (.text ("parse network address " ++ quote address ++ ": invalid IP"))
  | some ip =>
    match parseIP netmask with
    | none => throw (.text ("parse netmask " ++ quote netmask ++ ": invalid IP"))
    | some maskIP' =>
      match to4 ip, to4 maskIP' with
      | some ip4, some mask4 => pure ⟨maskIP ip4 mask4, mask4⟩
      | _, _ => throw (.text ("network address " ++ quote address ++ " or netmask "
          ++ quote netmask ++ " is not IPv4"))

/-- `firstDHCPRange`: the first range whose ends both are IPv4 addresses,
as numbers. -/
def firstDHCPRange (dhcp : NetworkDHCP) : Option (UInt32 × UInt32) :=
  dhcp.ranges.findSome? fun rng =>
    match (parseIP rng.start).bind to4, (parseIP rng.end_).bind to4 with
    | some s4, some e4 => some (bigEndianUint32 s4, bigEndianUint32 e4)
    | _, _ => none

/-- The loop `for i := i; i <= last; i++ { block = append(block, i) }`. The
counter wraps, so with the largest number for `last` the loop has no end; a
loop that ends does so within `2 ^ 32` rounds. -/
def appendUpTo : ℕ → UInt32 → UInt32 → List UInt32 → Option (List UInt32)
  | 0, _, _, _ => none
  | fuel + 1, i, last, block =>
    if i ≤ last then appendUpTo fuel (i + 1) last (block ++ [i]) else some block

/-- The counting loop, run for as many rounds as it can need. -/
def countUpTo (first last : UInt32) : Option (List UInt32) :=
  appendUpTo (2 ^ 32 + 1) first last []

/-- `rangeCandidates`. The range is taken as it stands: nothing keeps its ends
within the subnet, or its end below the largest number, where the loop would
not end. -/
def rangeCandidates (start end_ : UInt32) : GoComp (List UInt32) :=
  if end_ < start then throw (.text "DHCP range end is below start")
  else (countUpTo start end_ : Option (List UInt32))

/-- `machineReservationBlockSize`. -/
def machineReservationBlockSize : ℕ := 200

/-- `subnetTailCandidates`: the highest `size` host addresses of a subnet. The
arithmetic is in the widths of the source, in which the number of hosts wraps
to zero for a mask of all zeros. -/
def subnetTailCandidates (ipNet : IPNet) (size : ℕ) : GoComp (List UInt32) :=
  match to4 ipNet.ip with
  | none => throw (.text ("network subnet " ++ dottedDecimal ipNet.ip ++ " is not IPv4"))
  | some ip4 =>
    let hostMask : UInt32 := ~~~ (bigEndianUint32 ipNet.mask)
    let hostCount : UInt64 := (hostMask + 1).toUInt64
    if hostCount ≤ 2 then
      throw (.text ("subnet " ++ ipNet.text ++ " has no usable host addresses"))
    else
      let usableCount : UInt64 := hostCount - 2
      let n : Int64 :=
        if Int64.ofNat size ≤ usableCount.toInt64 then Int64.ofNat size else usableCount.toInt64
      let networkNum : UInt32 := bigEndianUint32 ip4
      let lastHost : UInt32 := networkNum + usableCount.toUInt32
      let first : UInt32 := lastHost - (n - 1).toUInt64.toUInt32
      (countUpTo first lastHost : Option (List UInt32))

/-- `allocationCandidates`: the candidates for machine reservations, in
network order. Only an `<ip>` element whose family is written out as `inet`
counts; a DHCP range of it takes precedence over the end of the subnet. -/
def allocationCandidates (network : Network) : GoComp (List UInt32) :=
  match network.ips.find? fun ip => ip.family == "inet" with
  | none => throw (.text "network has no IPv4 subnet")
  | some ip => do
    let ipNet ← parseSubnet ip.address ip.netmask
    match ip.dhcp.bind firstDHCPRange with
    | some (start, end_) => rangeCandidates start end_
    | none => subnetTailCandidates ipNet machineReservationBlockSize

/-- Whether a candidate may be taken: no host entry is bound to it, or one
with the same MAC is. The latter lets a machine keep the address it has. -/
def candidateFree (taken : String → Option String) (mac ip : String) : Bool :=
  match taken ip with
  | none => true
  | some owner => equalFold owner mac

/-- `allocateMachineIPIn`: from the offset the name hashes to, the first
candidate that may be taken. Names spread over the candidates, and a name
begins at the same one each time as long as their number stays the same. -/
def allocateMachineIPIn (network : Network) (domainName mac : String) : GoComp String := do
  let candidates ← allocationCandidates network
  if candidates.length = 0 then
    throw (.text "network has no usable addresses for machine reservation")
  else
    let taken := hostIPSet network
    let offset := (hashDomainName domainName % candidates.length.toUInt64).toNat
    let found := (List.range candidates.length).findSome? fun i =>
      let ip := formatIPv4 (candidates.getD ((offset + i) % candidates.length) 0)
      if candidateFree taken mac ip then some ip else none
    match found with
    | some ip => pure ip
    | none => throw (.text ("no free address in the machine reservation block of the "
        ++ s!"network (name {domainName})"))

/-! ## Planning the update -/

/-- `libvirt.NetworkUpdateCommand`, the commands that are used. -/
inductive NetworkUpdateCommand where
  | modify
  | delete
  | addLast
  deriving DecidableEq, Repr

/-- `machineHostXML`: the host entry of a machine. -/
def machineHostXML (domainName mac ip : String) : NetworkDHCPHost := ⟨mac, domainName, ip⟩

/-- What `planHostUpdate` decides: the address to bind and, unless the
entry already binds it, the command and the host entry of the update. -/
structure HostPlan where
  ip : String
  update : Option (NetworkUpdateCommand × NetworkDHCPHost)
  deriving DecidableEq, Repr

/-- `planHostUpdate`. The plan is made on the definition as it was read.
Whether it still fits when the update is carried out is not checked again by
the provider. -/
def planHostUpdate (network : Network) (domainName mac : String) : GoComp HostPlan := do
  let ip ← allocateMachineIPIn network domainName mac
  match hostEntryInNetwork network mac with
  | some existing =>
    if existing.ip ≠ "" ∧ equalFold existing.ip ip then
      -- already reserved: same MAC, same IP
      pure ⟨ip, none⟩
    else pure ⟨ip, some (.modify, machineHostXML domainName mac ip)⟩
  | none => pure ⟨ip, some (.addLast, machineHostXML domainName mac ip)⟩

/-! ## The operations on a network -/

/-- What `GetXMLDesc` returns: a text that parses as a network, or one that
does not. -/
inductive NetworkXML where
  | doc (network : Network)
  | malformed (err : GoError)

/-- `libvirt.NetworkDHCPLease`, as far as it is read. -/
structure NetworkDHCPLease where
  mac : String
  ipaddr : String
  deriving DecidableEq, Repr

/-- **The interface `networkOperations`.** Updates are always of the section
of DHCP host entries. `hang` is not a call: it stands for a loop that does
not end, and nothing answers it. -/
inductive NetworkOp where
  | getXMLDesc (flags : ℕ)
  | update (cmd : NetworkUpdateCommand) (parentIndex : ℕ) (xml : NetworkDHCPHost) (flags : ℕ)
  | getDHCPLeases
  | hang

/-- The signature of `networkOperations`. -/
def NetworkSig : Signature where
  Op := NetworkOp
  Ans
    | .getXMLDesc _ => Except GoError NetworkXML
    | .update _ _ _ _ => Except GoError Unit
    | .getDHCPLeases => Except GoError (List NetworkDHCPLease)
    | .hang => Empty

/-- A program over a network that can fail. -/
abbrev NetworkM (α : Type) := ExceptT GoError (Prog NetworkSig) α

/-- `networkXML`: fetch and parse the definition. -/
def networkXML : NetworkM Network := do
  match ← ExceptT.adapt (.wrap "get network XML")
      (ExceptT.mk (Prog.perform (σ := NetworkSig) (.getXMLDesc 0))) with
  | .doc network => pure network
  | .malformed err => throw (.wrap "parse network XML" err)

/-- Go on with what a computation returns, if it does. -/
def NetworkM.ofComp {α : Type} (x : GoComp α) : NetworkM α :=
  match x.run with
  | none => ExceptT.mk (Prog.call (σ := NetworkSig) .hang Empty.elim)
  | some r => ExceptT.mk (Prog.done r)

/-- `n.Update` on the first `<ip>` element, without flags. -/
def updateHost (cmd : NetworkUpdateCommand) (host : NetworkDHCPHost) : NetworkM Unit :=
  ExceptT.mk (Prog.perform (σ := NetworkSig) (.update cmd 0 host 0))

/-- `reserveMachineIP`. One read and at most one update, which are two calls:
what other clients do between them the plan does not know. -/
def reserveMachineIP (netName domainName mac : String) : NetworkM String := do
  let network ← networkXML
  let plan ← NetworkM.ofComp (planHostUpdate network domainName mac)
  match plan.update with
  | none => pure plan.ip
  | some (cmd, host) => do
    ExceptT.adapt (.wrap s!"update DHCP host entry for {domainName} on network {netName}")
      (updateHost cmd host)
    pure plan.ip

/-- `releaseMachineIP`. A missing entry is not an error. The entry is found by
its MAC, but deleted under the name of the domain, so one that was made under
another name is refused by libvirt. -/
def releaseMachineIP (netName domainName mac : String) : NetworkM Unit := do
  let network ← networkXML
  match hostEntryInNetwork network mac with
  | none => pure ()
  | some existing =>
    ExceptT.adapt (.wrap s!"remove DHCP host entry for {domainName} on network {netName}")
      (updateHost .delete (machineHostXML domainName mac existing.ip))

/-- `leaseAddressForMac`: empty when there is no lease yet. -/
def leaseAddressForMac (leases : List NetworkDHCPLease) (mac : String) : String :=
  match leases.find? fun lease => equalFold lease.mac mac && lease.ipaddr != "" with
  | some lease => lease.ipaddr
  | none => ""

/-- `machineAddress`. The address comes from the leases and not from the host
entry: it is the one the guest has asked for and got. -/
def machineAddress (netName mac : String) : NetworkM String := do
  let leases ← ExceptT.adapt (.wrap s!"get DHCP leases of network {netName}")
    (ExceptT.mk (Prog.perform (σ := NetworkSig) .getDHCPLeases))
  pure (leaseAddressForMac leases mac)

end LibvirtProvider

import LibvirtProvider.Elements
import LibvirtProvider.ReserveRelease

/-!
# Network restarts

libvirt keeps two definitions of a network, the persistent one and, while the
network is active, the one in force. What is read with no flags is the one in
force, and an update with no flags is of that one only. When the network is
started again the persistent definition takes its place.

The provider reads and updates with no flags. A reservation made while the
network is active is therefore gone after a restart, and the address can be
given to another machine while the first one still uses it. What lasts is
decided when a machine is given its address: it has to be given while the
network is not active, or be one that the persistent definition has for the
machine already (`Book.lasts`). In a run of reservations, releases and restarts
the entries of the machines stay in force as long as, at every restart, this was
so for every machine that holds an address; and a restart loses exactly the
others.
-/

namespace LibvirtProvider

open Interaction

/-! ## The two definitions of a network -/

/-- **A network as libvirt keeps it.** While it is not active the live
definition is of no account, and is kept only to have one type of state. -/
structure NetworkObj where
  /-- What the network is defined as. -/
  persistent : Network
  /-- What it runs with while it is active. -/
  live : Network
  active : Bool
  deriving DecidableEq

namespace NetworkObj

variable (s : NetworkObj)

/-- The definition in force. -/
def inForce : Network := if s.active then s.live else s.persistent

/-- The network with another definition in force. The other definition is
left, which is the whole difficulty: what is written to one is not in the
other. -/
def setInForce (network : Network) : NetworkObj :=
  if s.active then { s with live := network } else { s with persistent := network }

/-- Whether an update is of the live definition: `AFFECT_LIVE` is the first
flag, and no flags stand for the definition in force. -/
def affectsLive (flags : ℕ) : Bool := if flags = 0 then s.active else flags.testBit 0

/-- Whether it is of the persistent one: `AFFECT_CONFIG` is the second flag. -/
def affectsConfig (flags : ℕ) : Bool := if flags = 0 then !s.active else flags.testBit 1

/-- **`virNetworkUpdate` with its flags**; `none` where it is refused. With
flags it could write to both definitions; the provider passes none, and then
it writes to one. -/
def update (cmd : NetworkUpdateCommand) (parentIndex : ℕ) (host : NetworkDHCPHost) (flags : ℕ) :
    Option NetworkObj := do
  -- there is no live definition to update while the network is not active
  if s.affectsLive flags && !s.active then none
  let persistent ← if s.affectsConfig flags then s.persistent.update cmd parentIndex host
    else some s.persistent
  let live ← if s.affectsLive flags then s.live.update cmd parentIndex host else some s.live
  some { s with persistent := persistent, live := live }

/-- What `virNetworkGetXMLDesc` describes: `XML_INACTIVE` is the first flag. -/
def described (flags : ℕ) : Network := if flags.testBit 0 then s.persistent else s.inForce

/-- **A restart**: the network is started with its persistent definition. The
live one is forgotten, with every reservation that was written to it alone. -/
def restart : NetworkObj := { s with live := s.persistent, active := true }

@[simp] theorem inForce_setInForce (network : Network) :
    (s.setInForce network).inForce = network := by
  cases h : s.active <;> simp [setInForce, inForce, h]

@[simp] theorem setInForce_setInForce (network network' : Network) :
    (s.setInForce network).setInForce network' = s.setInForce network' := by
  cases h : s.active <;> simp [setInForce, h]

@[simp] theorem setInForce_inForce : s.setInForce s.inForce = s := by
  obtain ⟨persistent, live, active⟩ := s
  cases active <;> rfl

@[simp] theorem inForce_restart : s.restart.inForce = s.persistent := rfl

/-- An update with no flags is of the definition in force. -/
theorem update_current (cmd : NetworkUpdateCommand) (parentIndex : ℕ) (host : NetworkDHCPHost) :
    s.update cmd parentIndex host 0
      = (s.inForce.update cmd parentIndex host).map s.setInForce := by
  cases h : s.active <;>
    simp [update, affectsLive, affectsConfig, inForce, setInForce, h, Option.map_eq_bind]

end NetworkObj

/-- **The calls of `networkOperations` on a network with its two
definitions.** They take the flags into account, so that the model says what
the code would do with others. -/
def networkObjStep (s : NetworkObj) :
    (o : NetworkSig.Op) → NetworkChoice → Option (NetworkSig.Ans o × NetworkObj)
  | .getXMLDesc flags, c =>
    match c.fault with
    | some code => some (.error (.libvirt (.other code)), s)
    | none => some (.ok (.doc (s.described flags)), s)
  | .update cmd parentIndex host flags, c =>
    match c.fault with
    | some code => some (.error (.libvirt (.other code)), s)
    | none =>
      match s.update cmd parentIndex host flags with
      | none => some (.error (.libvirt (.other 55)), s)
      | some s' => some (.ok (), s')
  | .getDHCPLeases, c =>
    match c.fault with
    | some code => some (.error (.libvirt (.other code)), s)
    | none => some (.ok c.leases, s)
  | .hang, _ => none

/-- What the calls mean, over every choice of the environment. -/
def networkObjSem : Sem NetworkSig NetworkObj := Prog.semOf networkObjStep

/-- A call with no flags. -/
def NetworkOp.current : NetworkOp → Prop
  | .getXMLDesc flags => flags = 0
  | .update _ _ _ flags => flags = 0
  | .getDHCPLeases | .hang => True

section Current

variable {s s' : NetworkObj} {tr : List (Event NetworkSig)}

/-- **A call with no flags is a call on the definition in force.** Between two
restarts a network with two definitions behaves like one with a single
definition, and what is known of that carries over. -/
theorem networkObjStep_current {o : NetworkOp} (ho : o.current) (s : NetworkObj)
    (c : NetworkChoice) : networkObjStep s o c
      = (networkStep s.inForce o c).map fun r => (r.1, s.setInForce r.2) := by
  cases o with
  | getXMLDesc flags =>
    obtain rfl := ho
    cases hf : c.fault <;> simp [networkObjStep, networkStep, hf, NetworkObj.described]
  | update cmd parentIndex host flags =>
    obtain rfl := ho
    cases hf : c.fault with
    | some code => simp [networkObjStep, networkStep, hf]
    | none =>
      cases hu : s.inForce.update cmd parentIndex host <;>
        simp [networkObjStep, networkStep, hf, hu, NetworkObj.update_current]
  | getDHCPLeases => cases hf : c.fault <;> simp [networkObjStep, networkStep, hf]
  | hang => rfl

/-- **A run of calls with no flags** is a run on the definition in force. -/
theorem exec_inForce {α : Type} {p : Prog NetworkSig α} {a : α} (hp : p.Calls NetworkOp.current)
    (h : Prog.Exec networkObjSem p s tr s' a) :
    ∃ network, Prog.Exec networkSem p s.inForce tr network a ∧ s' = s.setInForce network := by
  refine hp.exec_part NetworkObj.inForce NetworkObj.setInForce NetworkObj.inForce_setInForce
    NetworkObj.setInForce_setInForce NetworkObj.setInForce_inForce ?_ h
  rintro s o r s' ho ⟨c, hc⟩
  rw [networkObjStep_current ho] at hc
  obtain ⟨⟨_, network⟩, hx, heq⟩ := Option.map_eq_some_iff.mp hc
  cases heq
  exact ⟨network, ⟨c, hx⟩, rfl⟩

theorem networkXML_current : networkXML.run.Calls NetworkOp.current :=
  networkXML_calls.mono fun _ ho => by rw [ho]; rfl

theorem updateHost_current (cmd : NetworkUpdateCommand) (host : NetworkDHCPHost)
    (f : GoError → GoError) :
    (ExceptT.adapt f (updateHost cmd host)).run.Calls NetworkOp.current :=
  (updateHost_calls cmd host f).mono fun _ ho => by rw [ho]; rfl

/-- **The provider passes no flags**: both of its calls are of the definition
in force. -/
theorem reserveMachineIP_current (netName domainName mac : String) :
    (reserveMachineIP netName domainName mac).run.Calls NetworkOp.current := by
  refine .bind_except networkXML_current fun network => .bind_except
    ((ofComp_calls _).mono fun _ ho => by rw [ho]; trivial) fun plan => ?_
  cases plan.update with
  | none => trivial
  | some u => exact .bind_except (updateHost_current u.1 u.2 _) fun _ => trivial

theorem releaseMachineIP_current (netName domainName mac : String) :
    (releaseMachineIP netName domainName mac).run.Calls NetworkOp.current := by
  refine .bind_except networkXML_current fun network => ?_
  cases hostEntryInNetwork network mac with
  | none => trivial
  | some e => exact updateHost_current _ _ _

end Current

/-! ## Entries that are not shared -/

/-- **No two machines share an entry or an address**: what is bound to one
address has one MAC, and an entry under a machine's name has the machine's
MAC. -/
structure Unshared (machines : Set String) (network : Network) : Prop where
  address : ∀ e ∈ network.hosts, ∀ f ∈ network.hosts, e.ip ≠ "" → e.ip = f.ip →
    foldKey e.mac = foldKey f.mac
  name : ∀ e ∈ network.hosts, e.name ∈ machines → foldKey e.mac = foldKey (deriveDomainMAC e.name)

/-- The machine has a host entry with the address. -/
def Network.Binds (network : Network) (domainName ip : String) : Prop :=
  ∃ e ∈ network.hosts, foldKey e.mac = foldKey (deriveDomainMAC domainName) ∧ e.ip = ip

instance (network : Network) (domainName ip : String) : Decidable (network.Binds domainName ip) :=
  inferInstanceAs (Decidable (∃ e ∈ network.hosts,
    foldKey e.mac = foldKey (deriveDomainMAC domainName) ∧ e.ip = ip))

namespace Unshared

variable {machines : Set String} {network network' : Network} {netName domainName ip : String}
  {tr : List (Event NetworkSig)}

theorem of_subset (h : Unshared machines network) (hsub : network'.hosts ⊆ network.hosts) :
    Unshared machines network' :=
  ⟨fun e he f hf => h.address e (hsub he) f (hsub hf), fun e he => h.name e (hsub he)⟩

/-- An entry of a machine is put in, with an address that is vacant for it. -/
theorem insert (h : Unshared machines network) {pre post : List NetworkDHCPHost}
    (hvac : Vacant network.hosts (deriveDomainMAC domainName) ip)
    (hhosts : network'.hosts = pre ++ ⟨deriveDomainMAC domainName, domainName, ip⟩ :: post)
    (hsub : ∀ e ∈ pre ++ post, e ∈ network.hosts) : Unshared machines network' := by
  have hmem : ∀ e ∈ network'.hosts,
      e = ⟨deriveDomainMAC domainName, domainName, ip⟩ ∨ e ∈ network.hosts := by
    intro e he
    rw [hhosts, List.mem_append, List.mem_cons] at he
    rcases he with he | he | he
    · exact Or.inr (hsub e (List.mem_append_left _ he))
    · exact Or.inl he
    · exact Or.inr (hsub e (List.mem_append_right _ he))
  -- what is bound to the address already has the MAC of its last owner
  have hown : ∀ f ∈ network.hosts, ip ≠ "" → f.ip = ip →
      foldKey f.mac = foldKey (deriveDomainMAC domainName) := by
    intro f hf hne hip
    obtain ⟨g, hg⟩ := exists_lastOwner hf hip
    obtain ⟨hgmem, hgip⟩ := mem_of_lastOwner hg
    rw [h.address f hf g hgmem (hip.trans_ne hne) (hip.trans hgip.symm), hvac g hg]
  refine ⟨fun e he f hf hne hip => ?_, fun e he hname => ?_⟩
  · rcases hmem e he with rfl | he
    · rcases hmem f hf with rfl | hf
      · rfl
      · exact (hown f hf hne hip.symm).symm
    · rcases hmem f hf with rfl | hf
      · exact hown e he (hip.symm.trans_ne hne) hip
      · exact h.address e he f hf hne hip
  · rcases hmem e he with rfl | he
    · rfl
    · exact h.name e he hname

/-- **A reservation**: nothing comes to be shared, and the other machines
keep their entries. -/
theorem reserve (h : Unshared machines network) (hd : domainName ∈ machines)
    {r : Except GoError String}
    (he : Prog.Exec networkSem
      (reserveMachineIP netName domainName (deriveDomainMAC domainName)).run network tr
      network' r) :
    Unshared machines network' ∧ ∀ d ip, deriveDomainMAC d ≠ deriveDomainMAC domainName →
      network.Binds d ip → network'.Binds d ip := by
  rcases reserveMachineIP_exec he with ⟨-, rfl⟩ | ⟨ip, -, -, hvac, hcases⟩
  · exact ⟨h, fun _ _ _ hb => hb⟩
  rcases hcases with ⟨_, -, -, rfl⟩ | ⟨_, -, -, hu⟩ | ⟨-, hu⟩
  · exact ⟨h, fun _ _ _ hb => hb⟩
  · obtain ⟨pre, a, post, hhosts, hhosts', -, ha, -⟩ := Network.update_modify hu
    have hsub : ∀ e ∈ pre ++ post, e ∈ network.hosts := by
      intro e he
      rw [hhosts]
      exact (List.Sublist.append_left (List.sublist_cons_self a post) pre).subset he
    refine ⟨h.insert hvac hhosts' hsub, ?_⟩
    rintro d ip hne ⟨e, hmem, hmac, hip⟩
    refine ⟨e, ?_, hmac, hip⟩
    rw [hhosts, List.mem_append, List.mem_cons] at hmem
    rw [hhosts', List.mem_append, List.mem_cons]
    refine hmem.imp_right (Or.imp_left ?_)
    -- the entry overwritten has the machine's MAC, if only for its name
    rintro rfl
    refine absurd (deriveDomainMAC_eq_of_foldKey_eq (hmac.symm.trans ?_)) hne
    rcases ha with ha | ha
    · exact ha
    · exact (h.name e (by rw [hhosts]; simp) (ha ▸ hd)).trans (by rw [ha])
  · obtain ⟨hhosts', -⟩ := Network.update_addLast hu
    refine ⟨h.insert hvac hhosts' fun e he => by rwa [Network.hosts_eq], ?_⟩
    rintro d ip - ⟨e, hmem, hmac, hip⟩
    refine ⟨e, ?_, hmac, hip⟩
    rw [Network.hosts_eq, List.mem_append] at hmem
    rw [hhosts', List.mem_append, List.mem_cons]
    exact hmem.imp_right Or.inr

/-- **A release.** It removes an entry of the machine's MAC, so that machines
with other MACs keep theirs. -/
theorem release (h : Unshared machines network) {r : Except GoError Unit}
    (he : Prog.Exec networkSem
      (releaseMachineIP netName domainName (deriveDomainMAC domainName)).run network tr
      network' r) :
    Unshared machines network' ∧ ∀ d ip, deriveDomainMAC d ≠ deriveDomainMAC domainName →
      network.Binds d ip → network'.Binds d ip := by
  constructor
  · rcases releaseMachineIP_exec he with ⟨-, rfl⟩ | ⟨-, -, rfl⟩ | ⟨-, _, -, hu⟩
    · exact h
    · exact h
    · obtain ⟨pre, a, post, hhosts, hhosts', -⟩ := Network.update_delete hu
      refine h.of_subset ?_
      rw [hhosts, hhosts']
      exact (List.Sublist.append_left (List.sublist_cons_self a post) pre).subset
  · rintro d ip hne ⟨e, hmem, hmac, hip⟩
    refine ⟨e, mem_hosts_release he hmem fun heq => hne ?_, hmac, hip⟩
    exact deriveDomainMAC_eq_of_foldKey_eq (hmac.symm.trans heq)

end Unshared

/-! ## Reservations, releases and restarts -/

/-- **A network and what its machines were told**: the address that a
machine's last reservation returned, if it succeeded and the machine has not
been released since, and whether that was at a time when it could last. -/
structure Book where
  net : NetworkObj
  held : String → Option String
  lasting : String → Bool

/-- **Whether a reservation made now lasts**, of the address it returns: the
network is not active, or its persistent definition has the address for the
machine already. Both are known before the reservation is made. -/
def Book.lasts (b : Book) (domainName : String) (ip : Option String) : Bool :=
  !b.net.active || ip.any fun ip => decide (b.net.persistent.Binds domainName ip)

/-- What happens to a network. -/
inductive BookEvent where
  | reserve (domainName : String)
  | release (domainName : String)
  | restart

/-- **One call for one of the machines**, from beginning to end, with any of
its calls to libvirt failing, **or a restart**. -/
inductive BookStep (machines : Set String) : Book → BookEvent → Book → Prop where
  | reserve {b : Book} {net : NetworkObj} {netName domainName : String}
      {tr : List (Event NetworkSig)} {r : Except GoError String} (hd : domainName ∈ machines)
      (h : Prog.Exec networkObjSem
        (reserveMachineIP netName domainName (deriveDomainMAC domainName)).run b.net tr net r) :
      BookStep machines b (.reserve domainName)
        ⟨net, Function.update b.held domainName r.toOption,
          Function.update b.lasting domainName (b.lasts domainName r.toOption)⟩
  | release {b : Book} {net : NetworkObj} {netName domainName : String}
      {tr : List (Event NetworkSig)} {r : Except GoError Unit} (hd : domainName ∈ machines)
      (h : Prog.Exec networkObjSem
        (releaseMachineIP netName domainName (deriveDomainMAC domainName)).run b.net tr net r) :
      BookStep machines b (.release domainName)
        ⟨net, if r.isOk then Function.update b.held domainName none else b.held, b.lasting⟩
  | restart (b : Book) : BookStep machines b .restart { b with net := b.net.restart }

/-- **The reservations are kept**: every machine that holds an address has
its entry with that address in the definition in force, and no two machines
hold the same one. -/
structure Book.Kept (b : Book) : Prop where
  entry : ∀ d ip, b.held d = some ip → b.net.inForce.Binds d ip
  distinct : ∀ d d' ip, b.held d = some ip → b.held d' = some ip → d = d'

/-- **What a restart needs**: every machine that holds an address was given it
at a time when it could last. A call for a machine needs nothing. -/
def Book.Survives (b : Book) (ev : BookEvent) : Prop :=
  ev = .restart → ∀ d, (b.held d).isSome = true → b.lasting d = true

/-- Any number of calls and restarts, where every restart has what it
needs. -/
abbrev SurvivedRun (machines : Set String) : Book → Book → Prop :=
  Relation.ReflTransGen fun b b' => ∃ ev, BookStep machines b ev b' ∧ b.Survives ev

/-- What the steps keep. The record of what lasts is tied to the persistent
definition, so that at a restart, when that comes into force, it says who has
an entry. -/
structure Book.Sound (machines : Set String) (b : Book) : Prop where
  entry : ∀ d ip, b.held d = some ip → b.net.inForce.Binds d ip
  told : ∀ d ip, b.held d = some ip → d ∈ machines ∧ ip ≠ ""
  lasting : ∀ d ip, b.held d = some ip → (b.lasting d = true ↔ b.net.persistent.Binds d ip)
  persistent : Unshared machines b.net.persistent
  inForce : Unshared machines b.net.inForce

namespace Book.Sound

variable {machines : Set String} {b b' : Book} {ev : BookEvent}

theorem kept (h : b.Sound machines) (hmac : Set.InjOn deriveDomainMAC machines) : b.Kept := by
  refine ⟨h.entry, fun d d' ip hd hd' => ?_⟩
  obtain ⟨e, he, hemac, heip⟩ := h.entry d ip hd
  obtain ⟨f, hf, hfmac, hfip⟩ := h.entry d' ip hd'
  have hfold := h.inForce.address e he f hf (heip ▸ (h.told d ip hd).2) (heip.trans hfip.symm)
  exact hmac (h.told d ip hd).1 (h.told d' ip hd').1
    (deriveDomainMAC_eq_of_foldKey_eq (hemac.symm.trans (hfold.trans hfmac)))

/-- A call for a machine: the definition in force changes, and what the
machine holds. While the network is not active that is the persistent one. -/
theorem call (h : b.Sound machines) (hmac : Set.InjOn deriveDomainMAC machines)
    {domainName : String} {network : Network} {held : String → Option String}
    {lasting : String → Bool} (hd : domainName ∈ machines)
    (hnetwork : Unshared machines network ∧ ∀ d ip, deriveDomainMAC d ≠ deriveDomainMAC domainName →
      b.net.inForce.Binds d ip → network.Binds d ip)
    (hheld : ∀ d ≠ domainName, held d = b.held d ∧ lasting d = b.lasting d)
    (hown : ∀ ip, held domainName = some ip → network.Binds domainName ip ∧ ip ≠ "")
    (hlasts : ∀ ip, held domainName = some ip →
      (lasting domainName = true ↔ b.net.active = false ∨ b.net.persistent.Binds domainName ip)) :
    Book.Sound machines ⟨b.net.setInForce network, held, lasting⟩ := by
  have hentry (d ip : String) (hdip : held d = some ip) : network.Binds d ip := by
    by_cases hdd : d = domainName
    · subst hdd
      exact (hown ip hdip).1
    · have hdip := (hheld d hdd).1.symm.trans hdip
      exact hnetwork.2 d ip (fun heq => hdd (hmac (h.told d ip hdip).1 hd heq)) (h.entry d ip hdip)
  refine ⟨fun d ip hdip => ?_, fun d ip hdip => ?_, fun d ip hdip => ?_, ?_, ?_⟩
  · rw [NetworkObj.inForce_setInForce]
    exact hentry d ip hdip
  · by_cases hdd : d = domainName
    · subst hdd
      exact ⟨hd, (hown ip hdip).2⟩
    · exact h.told d ip ((hheld d hdd).1.symm.trans hdip)
  · have hold (hdd : d ≠ domainName) : b.lasting d = true ↔ b.net.persistent.Binds d ip :=
      h.lasting d ip ((hheld d hdd).1.symm.trans hdip)
    cases hactive : b.net.active with
    | true =>
      -- the persistent definition is what it was
      simp only [NetworkObj.setInForce, hactive, if_true]
      by_cases hdd : d = domainName
      · subst hdd
        simpa [hactive] using hlasts ip hdip
      · rw [(hheld d hdd).2]
        exact hold hdd
    | false =>
      -- it is the one in force, before and after
      simp only [NetworkObj.setInForce, hactive, Bool.false_eq_true, if_false]
      refine iff_of_true ?_ (hentry d ip hdip)
      by_cases hdd : d = domainName
      · subst hdd
        exact (hlasts ip hdip).mpr (Or.inl hactive)
      · have hforce := h.entry d ip ((hheld d hdd).1.symm.trans hdip)
        rw [NetworkObj.inForce, hactive] at hforce
        rw [(hheld d hdd).2]
        exact (hold hdd).mpr hforce
  · unfold NetworkObj.setInForce
    split
    · exact h.persistent
    · exact hnetwork.1
  · rw [NetworkObj.inForce_setInForce]
    exact hnetwork.1

/-- **A step keeps the reservations**, if it is not a restart that lacks what
it needs. -/
theorem step (h : b.Sound machines) (hmac : Set.InjOn deriveDomainMAC machines)
    (hs : BookStep machines b ev b') (hev : b.Survives ev) : b'.Sound machines := by
  cases hs with
  | restart =>
    refine ⟨fun d ip hd => ?_, h.told, h.lasting, h.persistent, h.persistent⟩
    exact (h.lasting d ip hd).mp (hev rfl d (Option.isSome_of_eq_some hd))
  | @reserve net netName domainName tr r hd he =>
    obtain ⟨network, hx, rfl⟩ := exec_inForce (reserveMachineIP_current _ _ _) he
    refine h.call hmac hd (h.inForce.reserve hd hx)
      (fun d hne => ⟨Function.update_of_ne hne _ _, Function.update_of_ne hne _ _⟩)
      (fun ip hheld => ?_) fun ip hheld => ?_
    · rw [Function.update_self] at hheld
      cases r with
      | error e => cases hheld
      | ok ip' =>
        cases hheld
        refine ⟨exists_entry_of_reserve hx, ?_⟩
        rcases reserveMachineIP_exec hx with ⟨⟨_, hr⟩, -⟩ | ⟨_, hr, ⟨_, -, c, -, rfl⟩, -⟩
        · cases hr
        · cases hr
          exact formatIPv4_ne_empty c
    · rw [Function.update_self] at hheld
      rw [Function.update_self, Book.lasts, hheld]
      simp
  | @release net netName domainName tr r hd he =>
    obtain ⟨network, hx, rfl⟩ := exec_inForce (releaseMachineIP_current _ _ _) he
    cases r with
    | error e =>
      -- a release that fails leaves the entry
      rcases releaseMachineIP_exec hx with ⟨-, rfl⟩ | ⟨hr, -⟩ | ⟨hr, -⟩
      · rw [NetworkObj.setInForce_inForce]
        exact h
      · cases hr
      · cases hr
    | ok u =>
      have hnone (ip : String) :
          Function.update b.held domainName none domainName ≠ some ip := by
        rw [Function.update_self]
        nofun
      exact h.call hmac hd (h.inForce.release hx)
        (fun d hne => ⟨Function.update_of_ne hne _ _, rfl⟩)
        (fun ip hheld => absurd hheld (hnone ip)) fun ip hheld => absurd hheld (hnone ip)

theorem run (h : b.Sound machines) (hmac : Set.InjOn deriveDomainMAC machines)
    (hr : SurvivedRun machines b b') : b'.Sound machines := by
  induction hr with
  | refl => exact h
  | tail _ hs ih =>
    obtain ⟨ev, hstep, hev⟩ := hs
    exact ih.step hmac hstep hev

end Book.Sound

/-- **When reservations survive.** Take machines with distinct MACs, and
start from a network whose definitions share nothing between machines, before
anything was reserved. Let calls for the machines and restarts follow, whichever
calls fail, such that at every restart every machine that holds an address was
given it while the network was not active, or was given one that the persistent
definition had for it. Then the reservations are kept; the next step keeps them
exactly if it is not a restart where this fails; and of the machines that hold
an address a restart leaves exactly those their entry that were given it at such
a time. -/
theorem reservations_kept_iff {machines : Set String}
    (hmac : Set.InjOn deriveDomainMAC machines) {b₀ b : Book} (hheld : ∀ d, b₀.held d = none)
    (hpersistent : Unshared machines b₀.net.persistent)
    (hforce : Unshared machines b₀.net.inForce) (hrun : SurvivedRun machines b₀ b) :
    b.Kept ∧ (∀ ev b', BookStep machines b ev b' → (b'.Kept ↔ b.Survives ev))
    ∧ ∀ d ip, b.held d = some ip → (b.net.restart.inForce.Binds d ip ↔ b.lasting d = true) := by
  have h₀ : b₀.Sound machines := by
    refine ⟨fun d ip hd => ?_, fun d ip hd => ?_, fun d ip hd => ?_, hpersistent, hforce⟩
    · cases (hheld d).symm.trans hd
    · cases (hheld d).symm.trans hd
    · cases (hheld d).symm.trans hd
  have h := h₀.run hmac hrun
  refine ⟨h.kept hmac, fun ev b' hs => ⟨fun hkept hev d hd => ?_, fun hev => ?_⟩,
    fun d ip hd => (h.lasting d ip hd).symm⟩
  · subst hev
    cases hs
    obtain ⟨ip, hd⟩ := Option.isSome_iff_exists.mp hd
    exact (h.lasting d ip hd).mpr (hkept.entry d ip hd)
  · exact (h.step hmac hs hev).kept hmac

/-- A network with one address and no entries, before anything was
reserved. -/
def emptyBook (active : Bool) : Book :=
  ⟨⟨oneAddressNetwork [], oneAddressNetwork [], active⟩, fun _ => none, fun _ => false⟩

theorem unshared_oneAddressNetwork (machines : Set String) :
    Unshared machines (oneAddressNetwork []) := by
  constructor <;> simp

/-- The entry of `node-1`. -/
def node1Entry : NetworkDHCPHost :=
  ⟨deriveDomainMAC "default-node-1", "default-node-1", "192.168.122.2"⟩

/-- The address is reserved before the network is started, and a further restart
will keep it too. -/
theorem reservations_kept_started : ∃ b,
    SurvivedRun {"default-node-1", "default-node-2"} (emptyBook false) b
    ∧ b.net.active = true ∧ b.held "default-node-1" = some "192.168.122.2"
    ∧ b.net.inForce.Binds "default-node-1" "192.168.122.2"
    ∧ b.net.restart.inForce.Binds "default-node-1" "192.168.122.2" := by
  have hreserve : (Prog.runWith networkObjStep {}
      (reserveMachineIP "default" "default-node-1" (deriveDomainMAC "default-node-1")).run
      (emptyBook false).net []).map Prod.snd
      = some (⟨oneAddressNetwork [node1Entry], oneAddressNetwork [], false⟩,
        .ok "192.168.122.2") := by decide +kernel
  obtain ⟨tr, he⟩ := Prog.exists_exec_of_runWith hreserve
  have hmac : Set.InjOn deriveDomainMAC {"default-node-1", "default-node-2"} := by
    have hne : deriveDomainMAC "default-node-1" ≠ deriveDomainMAC "default-node-2" := by
      decide +kernel
    rintro a (rfl | rfl) b (rfl | rfl) hab
    · rfl
    · exact absurd hab hne
    · exact absurd hab.symm hne
    · rfl
  have hrun : SurvivedRun {"default-node-1", "default-node-2"} (emptyBook false)
      ⟨⟨oneAddressNetwork [node1Entry], oneAddressNetwork [node1Entry], true⟩,
        Function.update (fun _ => none) "default-node-1" (some "192.168.122.2"),
        Function.update (fun _ => false) "default-node-1" true⟩ := by
    refine .tail (.single ⟨_, .reserve (Or.inl rfl) he, fun h => by cases h⟩)
      ⟨_, .restart _, fun _ d hheld => ?_⟩
    change (Function.update (fun _ => none) "default-node-1" (some "192.168.122.2") d).isSome = true
      at hheld
    by_cases hd : d = "default-node-1"
    · subst hd
      rfl
    · rw [Function.update_of_ne hd] at hheld
      cases hheld
  obtain ⟨hkept, -, hrestart⟩ := reservations_kept_iff hmac (fun _ => rfl)
    (unshared_oneAddressNetwork _) (unshared_oneAddressNetwork _) hrun
  exact ⟨_, hrun, rfl, rfl, hkept.entry _ _ rfl, (hrestart _ _ rfl).mpr rfl⟩

/-- **An address is given away.** The network is active; `node-1` reserves its
address, the network is restarted, and `node-2` is returned the same address.
The entry of `node-1` is gone, and nothing has told `node-1`. -/
theorem reservation_lost_on_restart : ∃ b,
    Relation.ReflTransGen
      (fun b b' => ∃ ev, BookStep {"default-node-1", "default-node-2"} b ev b')
      (emptyBook true) b
    ∧ b.held "default-node-1" = some "192.168.122.2"
    ∧ b.held "default-node-2" = some "192.168.122.2"
    ∧ ¬ b.net.inForce.Binds "default-node-1" "192.168.122.2" := by
  have hfirst : (Prog.runWith networkObjStep {}
      (reserveMachineIP "default" "default-node-1" (deriveDomainMAC "default-node-1")).run
      (emptyBook true).net []).map Prod.snd
      = some (⟨oneAddressNetwork [], oneAddressNetwork [node1Entry], true⟩,
        .ok "192.168.122.2") := by decide +kernel
  have hsecond : (Prog.runWith networkObjStep {}
      (reserveMachineIP "default" "default-node-2" (deriveDomainMAC "default-node-2")).run
      (emptyBook true).net []).map Prod.snd
      = some (⟨oneAddressNetwork [], oneAddressNetwork
          [⟨deriveDomainMAC "default-node-2", "default-node-2", "192.168.122.2"⟩], true⟩,
        .ok "192.168.122.2") := by decide +kernel
  obtain ⟨tr₁, h₁⟩ := Prog.exists_exec_of_runWith hfirst
  obtain ⟨tr₂, h₂⟩ := Prog.exists_exec_of_runWith hsecond
  refine ⟨_, .tail (.tail (.single ⟨_, .reserve (Or.inl rfl) h₁⟩) ⟨_, .restart _⟩)
    ⟨_, .reserve (Or.inr rfl) h₂⟩, rfl, rfl, ?_⟩
  have hne : foldKey (deriveDomainMAC "default-node-2")
      ≠ foldKey (deriveDomainMAC "default-node-1") := by decide +kernel
  rintro ⟨e, he, hmac, -⟩
  have hhosts : e = ⟨deriveDomainMAC "default-node-2", "default-node-2", "192.168.122.2"⟩ := by
    simpa [NetworkObj.inForce] using he
  rw [hhosts] at hmac
  exact hne hmac

end LibvirtProvider

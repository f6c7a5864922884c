import LibvirtProvider.Interleaving
import LibvirtProvider.Reservation

/-!
# Reservations at the same time

`reserveMachineIP` reads the network, plans, and then updates; between the
two calls another client can update the network, so the plan is made on a
stale reading. Here any number of clients share a network, each running
reservations and releases for its own machine, interleaved at every call.

An addition made on a stale plan does no harm: libvirt refuses an address
that is taken in the first `<ip>` element, and no client writes to another
one. A modification is not checked, and that can go wrong: an address is
released, one client with an entry elsewhere and one without both plan to take
it, and both updates go through (`double_allocation`).

What it takes is another machine's reservation written between the reading and
the modification. In a schedule that has no such place (`Undisturbed`) the
entries stay apart, whatever else the clients do at the same time. Releases do
not matter, since they only free addresses.
-/

namespace LibvirtProvider

open Interaction

/-- No two host entries are bound to the same address. -/
def AddressesApart (network : Network) : Prop :=
  network.hosts.Pairwise fun e f => e.ip ≠ f.ip

instance (network : Network) : Decidable (AddressesApart network) :=
  inferInstanceAs (Decidable (network.hosts.Pairwise fun e f => e.ip ≠ f.ip))

/-- What a client runs: reservations and releases for its machine, any number
of them and in any order. The results are dropped, as a client may go on after
a failure as it likes. -/
def clientPrograms (netName domainName mac : String) (p : Prog NetworkSig Unit) : Prop :=
  p = ((reserveMachineIP netName domainName mac).run >>= fun _ => .done ())
  ∨ p = ((releaseMachineIP netName domainName mac).run >>= fun _ => .done ())

/-! ## The order of the steps -/

section Schedule

variable {ι : Type}

/-- Who reads the network in a step. -/
def readsNetwork : Label ι NetworkSig → Option ι
  | .call i ⟨.getXMLDesc _, .ok _⟩ => some i
  | _ => none

/-- Whose reservation is written in a step, by an addition or a modification.
Requests that were refused or failed have written nothing and do not count. -/
def writesReservation : Label ι NetworkSig → Option ι
  | .call i ⟨.update .addLast _ _ _, .ok _⟩ => some i
  | .call i ⟨.update .modify _ _ _, .ok _⟩ => some i
  | _ => none

/-- Whose entry is modified in a step. -/
def modifiesEntry : Label ι NetworkSig → Option ι
  | .call i ⟨.update .modify _ _ _, .ok _⟩ => some i
  | _ => none

variable [DecidableEq ι]

/-- Whether a client's reading is out of date, one step later: it is up to date
when the client reads, and out of date once another client's reservation is
written. -/
def outdatedBy (late : ι → Bool) (l : Label ι NetworkSig) (i : ι) : Bool :=
  if readsNetwork l = some i then false
  else late i || (writesReservation l).any (· != i)

/-- **Whose reading is out of date** after the given steps: another client's
reservation has been written since the client last read the network. -/
def outdated (ls : List (Label ι NetworkSig)) : ι → Bool := ls.foldl outdatedBy fun _ => false

/-- **A schedule that disturbs no modification**: whenever an entry is modified,
no other client's reservation has been written since the client that does it
read the network. This is about who calls when; the addresses do not enter. -/
def Undisturbed (ls : List (Label ι NetworkSig)) : Prop :=
  ∀ k, ∀ h : k < ls.length, ∀ i ∈ modifiesEntry ls[k], outdated (ls.take k) i = false

instance (ls : List (Label ι NetworkSig)) : Decidable (Undisturbed ls) :=
  inferInstanceAs (Decidable (∀ k, ∀ h : k < ls.length, ∀ i ∈ modifiesEntry ls[k],
    outdated (ls.take k) i = false))

variable {ls : List (Label ι NetworkSig)} {l : Label ι NetworkSig} {i : ι}

theorem outdated_snoc : outdated (ls ++ [l]) = outdatedBy (outdated ls) l := by
  simp only [outdated, List.foldl_append, List.foldl_cons, List.foldl_nil]

/-- One step more. -/
theorem Undisturbed.snoc (h : Undisturbed (ls ++ [l])) :
    Undisturbed ls ∧ ∀ i ∈ modifiesEntry l, outdated ls i = false := by
  constructor
  · intro k hk i hi
    have hk' : k < (ls ++ [l]).length := by
      rw [List.length_append]
      omega
    have hget : (ls ++ [l])[k] = ls[k] := List.getElem_append_left hk
    have := h k hk' i (hget ▸ hi)
    rwa [List.take_append_of_le_length hk.le] at this
  · intro i hi
    have hk : ls.length < (ls ++ [l]).length := by simp
    have hget : (ls ++ [l])[ls.length] = l := List.getElem_concat_length rfl _
    have := h ls.length hk i (by rw [hget]; exact hi)
    rwa [List.take_left' rfl] at this

/-- A reading that is up to date after a step was so before, unless the client
has just read. -/
theorem outdated_of_snoc (h : outdated (ls ++ [l]) i = false) (hread : readsNetwork l ≠ some i) :
    outdated ls i = false ∧ ∀ j ∈ writesReservation l, j = i := by
  rw [outdated_snoc, outdatedBy, if_neg hread, Bool.or_eq_false_iff] at h
  refine ⟨h.1, fun j hj => ?_⟩
  have := h.2
  rw [Option.mem_def.mp hj, Option.any_some] at this
  simpa using this

end Schedule

/-! ## What a client does -/

/-- The monitor of a client remembers the network last read. An update is of the
first element, and what a reservation writes is what it has planned on that
reading. -/
def reservationMonitor (domainName mac : String) : Monitor NetworkSig (Option Network) where
  next
    | _, .getXMLDesc _, .ok (.doc network) => some network
    | _, _, _ => none
  allows
    | q, .update cmd parentIndex host _ =>
      parentIndex = 0 ∧ (cmd ≠ .delete → ∃ n plan, q = some n
        ∧ (planHostUpdate n domainName mac).run = some (.ok plan)
        ∧ plan.update = some (cmd, host))
    | _, _ => True

section Obeys

variable {domainName mac : String}

theorem networkXML_obeys (q : Option Network) :
    networkXML.run.Obeys (reservationMonitor domainName mac)
      (fun q' r => ∀ n, r = .ok n → q' = some n) q := by
  rw [networkXML, Prog.obeys_bind_except, Prog.obeys_adapt]
  refine ⟨trivial, fun r => ?_⟩
  rcases r with e | network | e
  · exact fun n hn => nomatch hn
  · intro n hn
    cases hn
    rfl
  · exact fun n hn => nomatch hn

theorem ofComp_obeys {α : Type} {x : GoComp α} {q : Option Network}
    {Φ : Option Network → Except GoError α → Prop} :
    (NetworkM.ofComp x).run.Obeys (reservationMonitor domainName mac) Φ q ↔
      ∀ r, x.run = some r → Φ q r := by
  unfold NetworkM.ofComp
  cases hx : x.run with
  | none => exact iff_of_true ⟨trivial, fun r => r.elim⟩ fun r hr => nomatch hr
  | some r =>
    constructor
    · intro h r' hr
      exact Option.some.inj hr ▸ h
    · intro h
      exact h r rfl

theorem reserveMachineIP_obeys (netName : String) (q : Option Network) :
    (reserveMachineIP netName domainName mac).run.Obeys (reservationMonitor domainName mac)
      (fun _ _ => True) q := by
  rw [reserveMachineIP, Prog.obeys_bind_except]
  refine (networkXML_obeys q).mono fun q' r hr => ?_
  cases r with
  | error e => trivial
  | ok n =>
    obtain rfl := hr n rfl
    dsimp only
    rw [Prog.obeys_bind_except, ofComp_obeys]
    intro r hplan
    cases r with
    | error e => trivial
    | ok plan =>
      dsimp only
      cases hu : plan.update with
      | none => trivial
      | some update =>
        exact ⟨⟨rfl, fun _ => ⟨n, plan, rfl, hplan, hu⟩⟩, fun r => by cases r <;> trivial⟩

theorem releaseMachineIP_obeys (netName : String) (q : Option Network) :
    (releaseMachineIP netName domainName mac).run.Obeys (reservationMonitor domainName mac)
      (fun _ _ => True) q := by
  rw [releaseMachineIP, Prog.obeys_bind_except]
  refine (networkXML_obeys q).mono fun q' r hr => ?_
  cases r with
  | error e => trivial
  | ok n =>
    dsimp only
    split
    · trivial
    · exact ⟨⟨rfl, fun h => absurd rfl h⟩, fun r => trivial⟩

/-- **Every client program obeys the monitor.** The update of a reservation is
the one planned on the network that was read just before it, whatever has
happened to the network since. -/
theorem clientPrograms_obeys {netName : String} {p : Prog NetworkSig Unit}
    (hp : clientPrograms netName domainName mac p) :
    p.Obeys (reservationMonitor domainName mac) (fun _ _ => True) none := by
  rcases hp with rfl | rfl
  · exact Prog.obeys_bind.mpr (reserveMachineIP_obeys _ _)
  · exact Prog.obeys_bind.mpr (releaseMachineIP_obeys _ _)

end Obeys

/-! ## What the clients share -/

/-- **What the clients can rely on**, with whose readings are out of date and
what they were. The entries are apart and one with a machine's name has its MAC.
The elements other than the first are what everybody has read, and a reading
that is not out of date lacks nothing that is in the network now. -/
structure Shared {ι : Type} (name mac : ι → String) (late : ι → Bool) (q : ι → Option Network)
    (network : Network) : Prop where
  apart : network.hosts.Pairwise Apart
  named : ∀ i, ∀ e ∈ network.hosts, e.name = name i → foldKey e.mac = foldKey (mac i)
  read : ∀ i n, q i = some n → n.hosts.Pairwise Apart ∧ n.restHosts = network.restHosts
  current : ∀ i n, q i = some n → late i = false → ∀ e ∈ network.hosts, e ∈ n.hosts

section Shared

variable {ι : Type} [DecidableEq ι] {name mac : ι → String} {late : ι → Bool}
  {q : ι → Option Network} {network network' : Network} {i : ι}
  {ls : List (Label ι NetworkSig)} {l : Label ι NetworkSig}

/-- A client has read the network, or its reading is used up. -/
theorem Shared.set (h : Shared name mac (outdated ls) q network) {qi : Option Network}
    (hreads : ∀ j, readsNetwork l = some j → j = i) (hqi : qi = some network ∨ qi = none) :
    Shared name mac (outdated (ls ++ [l])) (Function.update q i qi) network := by
  have hset {j : ι} {n : Network} (hj : Function.update q i qi j = some n) :
      n = network ∨ j ≠ i ∧ q j = some n := by
    by_cases hji : j = i
    · subst hji
      rw [Function.update_self] at hj
      rcases hqi with hqi | hqi
      · exact Or.inl (Option.some.inj (hj.symm.trans hqi))
      · cases hj.symm.trans hqi
    · rw [Function.update_of_ne hji] at hj
      exact Or.inr ⟨hji, hj⟩
  refine ⟨h.apart, h.named, fun j n hj => ?_, fun j n hj hlate e he => ?_⟩
  · rcases hset hj with rfl | ⟨-, hj⟩
    · exact ⟨h.apart, rfl⟩
    · exact h.read j n hj
  · rcases hset hj with rfl | ⟨hji, hj⟩
    · exact he
    · exact h.current j n hj (outdated_of_snoc hlate fun hread => hji (hreads j hread)).1 e he

/-- **A reservation is written**: the entries are apart again, and every other
reading is out of date. -/
theorem Shared.write (h : Shared name mac (outdated ls) q network)
    {pre post : List NetworkDHCPHost} {host : NetworkDHCPHost} (hname : Function.Injective name)
    (hwrites : writesReservation l = some i) (hreads : readsNetwork l = none)
    (hmac : host.mac = mac i) (hhost : host.name = name i)
    (hhosts : network'.hosts = pre ++ host :: post) (hrest : network'.restHosts = network.restHosts)
    (hsub : (pre ++ post).Sublist network.hosts) (hfree : ∀ e ∈ pre ++ post, Apart e host) :
    Shared name mac (outdated (ls ++ [l])) (Function.update q i none) network' := by
  refine ⟨?_, fun j e he hej => ?_, fun j n hj => ?_, fun j n hj hlate => ?_⟩
  · rw [hhosts]
    exact pairwise_apart_insert (h.apart.sublist hsub) hfree
  · rw [hhosts, List.mem_append, List.mem_cons] at he
    rcases he with he | rfl | he
    · exact h.named j e (hsub.subset (List.mem_append_left _ he)) hej
    · rw [hmac, hname (hhost.symm.trans hej)]
    · exact h.named j e (hsub.subset (List.mem_append_right _ he)) hej
  · by_cases hji : j = i
    · subst hji
      rw [Function.update_self] at hj
      cases hj
    · rw [Function.update_of_ne hji] at hj
      rw [hrest]
      exact h.read j n hj
  · by_cases hji : j = i
    · subst hji
      rw [Function.update_self] at hj
      cases hj
    · obtain ⟨-, hw⟩ := outdated_of_snoc hlate (by rw [hreads]; nofun)
      exact absurd (hw i hwrites).symm hji

/-- **An addition** is at an address that is taken nowhere: libvirt has checked
the first element, and of the others the client has read what they hold. -/
theorem Shared.addLast (h : Shared name mac (outdated ls) q network) {n : Network}
    {plan : HostPlan} {host : NetworkDHCPHost} (hname : Function.Injective name)
    (hwrites : writesReservation l = some i) (hreads : readsNetwork l = none) (hn : q i = some n)
    (hplan : (planHostUpdate n (name i) (mac i)).run = some (.ok plan))
    (hupdate : plan.update = some (.addLast, host))
    (hu : network.update .addLast 0 host = some network') :
    Shared name mac (outdated (ls ++ [l])) (Function.update q i none) network' := by
  obtain ⟨-, hvac, ⟨_, -, -, hp⟩ | ⟨_, -, -, hp⟩ | ⟨hnone, hp⟩⟩ := planHostUpdate_spec hplan
  · cases hp.symm.trans hupdate
  · cases hp.symm.trans hupdate
  cases hp.symm.trans hupdate
  obtain ⟨hhosts, hclash⟩ := Network.update_addLast hu
  have hmacs := hostEntryInNetwork_eq_none.mp hnone
  refine h.write hname hwrites hreads rfl rfl hhosts (Network.update_zero hu).2
    (Network.hosts_eq network ▸ List.Sublist.refl _) fun e he => ?_
  rcases List.mem_append.mp he with he | he
  · exact hclash e he
  · have hmem : e ∈ n.hosts := Network.mem_hosts.mpr (Or.inr ((h.read i n hn).2 ▸ he))
    exact ⟨hmacs e hmem, fun heq => hmacs e hmem
      (h.named i e (Network.mem_hosts.mpr (Or.inr he)) heq), hvac.unbound hmacs e hmem⟩

/-- **A modification on a reading that is not out of date** is to an address that
nobody has: what is in the network now was there when it was read, and there
the address was vacant. -/
theorem Shared.modify (h : Shared name mac (outdated ls) q network) {n : Network}
    {plan : HostPlan} {host : NetworkDHCPHost} (hname : Function.Injective name)
    (hwrites : writesReservation l = some i) (hreads : readsNetwork l = none) (hn : q i = some n)
    (hcurrent : outdated ls i = false)
    (hplan : (planHostUpdate n (name i) (mac i)).run = some (.ok plan))
    (hupdate : plan.update = some (.modify, host))
    (hu : network.update .modify 0 host = some network') :
    Shared name mac (outdated (ls ++ [l])) (Function.update q i none) network' := by
  obtain ⟨-, hvac, ⟨_, -, -, hp⟩ | ⟨_, -, -, hp⟩ | ⟨-, hp⟩⟩ := planHostUpdate_spec hplan
  · cases hp.symm.trans hupdate
  · cases hp.symm.trans hupdate
    obtain ⟨pre, a, post, hhosts, hhosts', -, ha, -⟩ := Network.update_modify hu
    have hmem : a ∈ network.hosts := hhosts ▸ by simp
    have hamac : foldKey a.mac = foldKey (mac i) := ha.elim id fun ha => h.named i a hmem ha
    have hapart := h.apart
    rw [hhosts, List.pairwise_middle (fun h => h.symm), List.pairwise_cons] at hapart
    have hsub : (pre ++ post).Sublist network.hosts := by
      rw [hhosts]
      exact (List.Sublist.refl pre).append (List.sublist_cons_self a post)
    refine h.write hname hwrites hreads rfl rfl hhosts' (Network.update_zero hu).2 hsub
      fun e he => ?_
    have hemac : foldKey e.mac ≠ foldKey (mac i) := hamac ▸ (hapart.1 e he).1.symm
    have hein := hsub.subset he
    refine ⟨hemac, fun heq => hemac (h.named i e hein heq), fun hip => hemac ?_⟩
    exact hvac.mac_eq (h.read i n hn).1 (h.current i n hn hcurrent e hein) hip
  · cases hp.symm.trans hupdate

/-- **A release** leaves fewer entries. What others have read may now hold
more than there is, which is why `Shared.current` asks for one inclusion only. -/
theorem Shared.delete (h : Shared name mac (outdated ls) q network) {host : NetworkDHCPHost}
    (hreads : readsNetwork l = none)
    (hu : network.update .delete 0 host = some network') :
    Shared name mac (outdated (ls ++ [l])) (Function.update q i none) network' := by
  obtain ⟨pre, a, post, hhosts, hhosts', -⟩ := Network.update_delete hu
  have hsub : network'.hosts.Sublist network.hosts := by
    rw [hhosts, hhosts']
    exact (List.Sublist.refl pre).append (List.sublist_cons_self a post)
  have hset := h.set (i := i) (fun j hj => by cases hreads.symm.trans hj)
    (Or.inr (rfl : (none : Option Network) = none))
  refine ⟨hset.apart.sublist hsub, fun j e he => hset.named j e (hsub.subset he),
    fun j n hj => ?_, fun j n hj hlate e he => hset.current j n hj hlate e (hsub.subset he)⟩
  rw [(Network.update_zero hu).2]
  exact hset.read j n hj

/-- **One call of a client**, in a schedule that disturbs no modification. -/
theorem Shared.call (h : Shared name mac (outdated ls) q network)
    (hname : Function.Injective name) {o : NetworkSig.Op} {r : NetworkSig.Ans o}
    (hallow : (reservationMonitor (name i) (mac i)).allows (q i) o)
    (hsem : networkSem network o r network')
    (hcurrent : ∀ j ∈ modifiesEntry (.call i ⟨o, r⟩ : Label ι NetworkSig), outdated ls j = false) :
    Shared name mac (outdated (ls ++ [.call i ⟨o, r⟩]))
      (Function.update q i ((reservationMonitor (name i) (mac i)).next (q i) o r)) network' := by
  cases o with
  | getXMLDesc flags =>
    obtain ⟨rfl, ⟨code, rfl⟩ | rfl⟩ := networkSem_getXMLDesc.mp hsem
    · exact h.set nofun (Or.inr rfl)
    · exact h.set (fun j hj => (Option.some.inj hj).symm) (Or.inl rfl)
  | update cmd parentIndex host flags =>
    obtain ⟨rfl, hplanned⟩ := hallow
    rcases networkSem_update hsem with ⟨⟨code, rfl⟩, rfl⟩ | ⟨rfl, hu⟩
    · exact h.set (fun j hj => by cases cmd <;> cases hj) (Or.inr rfl)
    cases cmd with
    | addLast =>
      obtain ⟨n, plan, hn, hplan, hupdate⟩ := hplanned nofun
      exact h.addLast hname rfl rfl hn hplan hupdate hu
    | modify =>
      obtain ⟨n, plan, hn, hplan, hupdate⟩ := hplanned nofun
      exact h.modify hname rfl rfl hn (hcurrent i rfl) hplan hupdate hu
    | delete => exact h.delete rfl hu
  | getDHCPLeases =>
    obtain rfl := networkSem_getDHCPLeases hsem
    exact h.set nofun (Or.inr rfl)
  | hang => exact r.elim

end Shared

/-- **No double allocation in a schedule that disturbs no modification.** Start
from entries that are apart, an entry with a machine's name having its MAC, and
let any number of clients for machines with different names run reservations and
releases, interleaved at every call, with any call failing and any client
stopping anywhere. If no other client's reservation is ever written between a
client's reading the network and its modifying an entry, the entries are apart
in the end: no two have the same MAC, the same name or the same address. -/
theorem no_double_allocation {ι : Type} [DecidableEq ι] {netName : String} {name mac : ι → String}
    {c₀ c : Pool ι Network NetworkSig Unit} {ls : List (Label ι NetworkSig)}
    (hname : Function.Injective name) (hapart : c₀.state.hosts.Pairwise Apart)
    (hnamed : ∀ i, ∀ e ∈ c₀.state.hosts, e.name = name i → foldKey e.mac = foldKey (mac i))
    (hidle : ∀ i, c₀.prog i = .done ())
    (hrun : Run (Pool.Step networkSem (fun i => clientPrograms netName (name i) (mac i))
      (fun _ _ => False)) c₀ ls c)
    (hschedule : Undisturbed ls) : c.state.hosts.Pairwise Apart := by
  have hstart : Pool.Monitored (fun i => reservationMonitor (name i) (mac i))
      (fun q network => Undisturbed ([] : List (Label ι NetworkSig)) →
        Shared name mac (outdated []) q network) c₀ := by
    refine ⟨fun _ => none, fun _ => ⟨hapart, hnamed, nofun, nofun⟩, fun i => ?_⟩
    rw [hidle i]
    trivial
  have hcut (ls : List (Label ι NetworkSig)) (q : ι → Option Network) (network : Network) (i : ι)
      (hR : Undisturbed ls → Shared name mac (outdated ls) q network)
      (hnext : Undisturbed (ls ++ [.cut i])) :
      Shared name mac (outdated (ls ++ [.cut i])) q network := by
    have h := hR hnext.snoc.1
    exact ⟨h.apart, h.named, h.read, fun j n hj hlate =>
      h.current j n hj (outdated_of_snoc hlate nofun).1⟩
  obtain ⟨q, hshared, -⟩ := Pool.Monitored.run
    (R := fun ls q network => Undisturbed ls → Shared name mac (outdated ls) q network)
    (fun _ => none)
    (fun ls q network i o r network' hR hallow hsem hnext =>
      (hR hnext.snoc.1).call hname hallow hsem hnext.snoc.2)
    (fun ls q network i hR hnext => (hR hnext.snoc.1).set nofun (Or.inr rfl)) hcut
    (fun i p hp => clientPrograms_obeys hp) (fun ls q network network' _ hs => hs.elim) hstart hrun
  exact (hshared hschedule).apart

/-! ## The race

Three machines and two addresses. The third machine has the first address and
releases it. Then the first machine, bound to the second address, and the
second machine, which has no entry, both read the network and both plan to
take the address that was released. The second machine's entry is added; the
first machine's is modified, which libvirt does not check. -/

/-- The three machines. -/
def raceName : Fin 3 → String
  | 0 => "default-node-2"
  | 1 => "default-node-4"
  | 2 => "default-node-6"

/-- Where the race begins: nothing is running. -/
def racePool : Pool (Fin 3) Network NetworkSig Unit where
  state := rangeNetwork "192.168.122.3"
    [⟨deriveDomainMAC (raceName 2), raceName 2, "192.168.122.2"⟩,
     ⟨deriveDomainMAC (raceName 0), raceName 0, "192.168.122.3"⟩]
  prog _ := .done ()

/-- The race: who makes the first update, after both have read, and who the
second one. -/
def raceSchedule (i j : Fin 3) : List (Pool.Move (Fin 3) NetworkChoice NetworkSig Unit) :=
  let mac i := deriveDomainMAC (raceName i)
  [.start 2 ((releaseMachineIP "default" (raceName 2) (mac 2)).run >>= fun _ => .done ()),
   .call 2 {}, .call 2 {},
   .start 0 ((reserveMachineIP "default" (raceName 0) (mac 0)).run >>= fun _ => .done ()),
   .start 1 ((reserveMachineIP "default" (raceName 1) (mac 1)).run >>= fun _ => .done ()),
   .call 0 {}, .call 1 {}, .call i {}, .call j {}]

theorem raceSchedule_menu {i j k : Fin 3} {p : Prog NetworkSig Unit}
    (hp : Pool.Move.start k p ∈ raceSchedule i j) :
    clientPrograms "default" (raceName k) (deriveDomainMAC (raceName k)) p := by
  simp only [raceSchedule, List.mem_cons, reduceCtorEq, Pool.Move.start.injEq, List.not_mem_nil,
    or_false, false_or] at hp
  rcases hp with ⟨rfl, rfl⟩ | ⟨rfl, rfl⟩ | ⟨rfl, rfl⟩
  · exact Or.inr rfl
  · exact Or.inl rfl
  · exact Or.inl rfl

/-- The first machine's modification comes first. The second machine still adds
its entry on what it has read before; libvirt refuses that. -/
theorem no_double_allocation_race : ∃ ls c,
    Run (Pool.Step networkSem
      (fun i => clientPrograms "default" (raceName i) (deriveDomainMAC (raceName i)))
      (fun _ _ => False)) racePool ls c
    ∧ Undisturbed ls ∧ ls.length = 9
    ∧ c.state.hosts = [⟨deriveDomainMAC (raceName 0), raceName 0, "192.168.122.2"⟩]
    ∧ c.state.hosts.Pairwise Apart := by
  have hend : (Pool.record networkStep ([], racePool) (raceSchedule 0 1)).map
      (fun x => (decide (Undisturbed x.1), x.1.length, x.2.state))
      = some (true, 9, rangeNetwork "192.168.122.3"
        [⟨deriveDomainMAC (raceName 0), raceName 0, "192.168.122.2"⟩]) := by decide +kernel
  obtain ⟨⟨ls, c⟩, hc, heq⟩ := Option.map_eq_some_iff.mp hend
  obtain ⟨hsched, hlength, hstate⟩ : decide (Undisturbed ls) = true ∧ ls.length = 9
      ∧ c.state = _ := by
    simpa only [Prod.mk.injEq] using heq
  have hrun : Run (Pool.Step networkSem
      (fun i => clientPrograms "default" (raceName i) (deriveDomainMAC (raceName i)))
      (fun _ _ => False)) racePool ls c :=
    Pool.run_of_record (fun s o x r s' hs => ⟨x, hs⟩) (fun i p => raceSchedule_menu)
      (.nil racePool) hc
  have hschedule := of_decide_eq_true hsched
  refine ⟨ls, c, hrun, hschedule, hlength, by rw [hstate]; rfl, ?_⟩
  exact no_double_allocation (by decide +kernel) (by decide +kernel) (by decide +kernel)
    (fun _ => rfl) hrun hschedule

/-- **Two machines come to have one address.** The names and the MACs of the
machines differ and the entries at the start are apart. It takes one address
that has just been released, and the modification coming after the addition. -/
theorem double_allocation :
    (∀ i j, i ≠ j → raceName i ≠ raceName j
      ∧ deriveDomainMAC (raceName i) ≠ deriveDomainMAC (raceName j))
    ∧ racePool.state.hosts.Pairwise Apart
    ∧ ∃ c, Pool.Reach networkSem
        (fun i => clientPrograms "default" (raceName i) (deriveDomainMAC (raceName i)))
        (fun _ _ => False) (fun _ _ => True) racePool c
      ∧ c.state.hosts = [⟨deriveDomainMAC (raceName 0), raceName 0, "192.168.122.2"⟩,
          ⟨deriveDomainMAC (raceName 1), raceName 1, "192.168.122.2"⟩]
      ∧ ¬ AddressesApart c.state := by
  have hend : (Pool.play networkStep racePool (raceSchedule 1 0)).map Pool.state
      = some (rangeNetwork "192.168.122.3"
        [⟨deriveDomainMAC (raceName 0), raceName 0, "192.168.122.2"⟩,
         ⟨deriveDomainMAC (raceName 1), raceName 1, "192.168.122.2"⟩]) := by decide +kernel
  obtain ⟨c, hc, hstate⟩ := Option.map_eq_some_iff.mp hend
  refine ⟨by decide +kernel, by decide +kernel, c,
    Pool.reach_of_play (fun i p => raceSchedule_menu) hc, ?_, ?_⟩
  · rw [hstate]
    rfl
  · rw [hstate]
    decide +kernel

end LibvirtProvider

import LibvirtProvider.Bootstrap
import LibvirtProvider.Footprint
import LibvirtProvider.Identity
import LibvirtProvider.Provisioning

/-!
# What a machine can count on

Reconciles of a machine run one after the other, each cut off between any two
of its calls, with any call failing. Meanwhile operations for other machines
run on the hosts, the guest shuts itself down, and the object is edited
(`Around`). What all of this leaves true is collected in `Upheld`: the object
stands for the same domain as at the start, its host is in order for another
attempt, and a provider ID is stored only for a domain that is there.

This is what convergence rests on: whatever has happened, the state is one from
which a reconcile that is not disturbed gets further.
-/

namespace LibvirtProvider

open Interaction

/-- **What happens around a machine**: an operation for another machine, which
has another MAC and a UUID of its own; its own guest shuts down; and the object
is edited, but for its identity and its provider ID, and without taking back
that it is being deleted. -/
inductive Around (name uuid : String) (host : ℕ) (s : Management) : Management → Prop where
  | operation {o : MachineOp} {tr : List (Event ProviderSig)} {r : o.Result} {w : World}
      (hmac : o.cfg.mac ≠ deriveDomainMAC name)
      (huuid : o.cfg.domainUUID ≠ "" ∧ o.cfg.domainUUID ≠ uuid)
      (he : Prog.Exec providerSem (provide o) s.world tr w r) :
      Around name uuid host s { s with world := w }
  | shutdown {d : Domain} (hd : (s.world.hosts host).domains.lookup name = some d)
      (hp : d.persistent = true) :
      Around name uuid host s { s with
        world := s.world.setHost host { s.world.hosts host with
          domains := (s.world.hosts host).domains.insert name
            { d with active := false, state := .shutoff } } }
  | edit {m m' : LibvirtMachine} (hm : s.api.machine = some m) (hname : m'.name = m.name)
      (hnmspace : m'.nmspace = m.nmspace) (huid : m'.uid = m.uid)
      (hid : m'.spec.providerID = m.spec.providerID)
      (hdel : m.deletionTimestamp = true → m'.deletionTimestamp = true) :
      Around name uuid host s { s with api := { s.api with machine := m'.stores } }

/-- **What a machine can count on**, in the course of a reconcile. A part of
it is about the objects that are stored and a part about those that were read,
which can be older: what was read is acted on later, and has to be right then. -/
structure Upheld (name uuid : String) (c : LibvirtCluster) (host : ℕ) (q : Course)
    (s : Management) : Prop where
  serves : q.Serves c (fun m => domainName m = name) s.api
  stored : ∀ m, s.api.machine = some m → m.Bears uuid
  read : ∀ m, q.machine = some m → m.Bears uuid
  hostOf : s.world.hostOf c.spec.uri = some host
  order : Orderly name uuid c.spec.network (s.world.hosts host)
  deleting : ∀ x m, q.machine = some x → s.api.machine = some m →
    x.deletionTimestamp = true → m.deletionTimestamp = true
  backed : ∀ m, s.api.machine = some m → m.deletionTimestamp = false →
    m.spec.providerID.isSome = true → (s.world.hosts host).present name = true
  shown : ∀ x, q.machine = some x → x.deletionTimestamp = false →
    (q.created = true ∨ ∃ st, q.state = some st ∧ st ≠ .notFound) →
      (s.world.hosts host).present name = true

section Upheld

variable {name uuid : String} {c : LibvirtCluster} {host : ℕ} {q : Course} {s s' : Management}

/-- At the start of a reconcile nothing has been read; what was known of the
objects that are stored remains. -/
theorem Upheld.forget (h : Upheld name uuid c host q s) : Upheld name uuid c host {} s where
  serves := h.serves.forget
  stored := h.stored
  read _ hx := by cases hx
  hostOf := h.hostOf
  order := h.order
  deleting _ _ hx := by cases hx
  backed := h.backed
  shown _ hx := by cases hx

/-- **The host changes**, is left in order, and the domain stays. The objects
are not concerned by it. -/
theorem Upheld.world (h : Upheld name uuid c host q s) {w : World}
    (hhostOf : w.hostOf = s.world.hostOf)
    (horder : Orderly name uuid c.spec.network (w.hosts host))
    (hpresent : (s.world.hosts host).present name = true → (w.hosts host).present name = true) :
    Upheld name uuid c host q { s with world := w } where
  serves := h.serves
  stored := h.stored
  read := h.read
  hostOf := (congrFun hhostOf _).trans h.hostOf
  order := horder
  deleting := h.deleting
  backed m hm hdel hid := hpresent (h.backed m hm hdel hid)
  shown x hx hdel hq := hpresent (h.shown x hx hdel hq)

/-- The machine's domain is another one, that can be started or deleted. This
is how a guest that shuts down is seen from the outside. -/
theorem Orderly.insert {net : String} {s : Host} {d : Domain} (h : Orderly name uuid net s)
    (hsteady : d.Steady) (hstanding : d.persistent = true ∨ d.active = true) :
    Orderly name uuid net { s with domains := s.domains.insert name d } where
  sole := h.sole
  named := h.named
  uuids n x hn hx := by
    rw [AList.lookup_insert_ne hn] at hx
    exact h.uuids n x hn hx
  steady x hx := by
    rw [AList.lookup_insert] at hx
    cases hx
    exact hsteady
  standing x hx := by
    rw [AList.lookup_insert] at hx
    cases hx
    exact hstanding

/-- **What happens around a machine keeps it**: other machines have other
things on the host, a guest that shuts down leaves its domain defined, and an
edit leaves the identity of the object. -/
theorem Upheld.around (h : Upheld name uuid c host q s) (hs : Around name uuid host s s') :
    Upheld name uuid c host q s' := by
  cases hs with
  | @operation o tr r w hmac huuid he =>
    have hname : name ≠ o.cfg.domainName := by
      rintro rfl
      exact hmac rfl
    rcases provide_exec he with ⟨rfl, -, -⟩ | ⟨host', tr', t, -, hx, -, rfl⟩
    · exact h
    by_cases hhost : host = host'
    · subst hhost
      refine h.world rfl ?_ fun hp => ?_
      · rw [World.hosts_setHost_self]
        exact h.order.provideOn (Or.inr ⟨hmac, huuid⟩) hx
      · rw [World.hosts_setHost_self, Host.present, (provideOn_keepsBut hx).domains name hname]
        exact hp
    · refine h.world rfl ?_ fun hp => ?_
      · rw [World.hosts_setHost_of_ne _ hhost]
        exact h.order
      · rw [World.hosts_setHost_of_ne _ hhost]
        exact hp
  | shutdown hd hp =>
    refine h.world rfl ?_ fun _ => ?_
    · rw [World.hosts_setHost_self]
      exact h.order.insert (Or.inr ⟨rfl, rfl⟩) (Or.inl hp)
    · rw [World.hosts_setHost_self]
      exact Option.isSome_of_eq_some (AList.lookup_insert _)
  | @edit m m' hm hname hnmspace huid hid hdel =>
    have hstored {y : LibvirtMachine} (hy : m'.stores = some y) : y = m' :=
      LibvirtMachine.eq_of_stores hy
    refine ⟨h.serves.edit ((domainName_congr hname hnmspace).trans (h.serves.stored m hm)),
      fun y hy => ?_, h.read, h.hostOf, h.order, fun x y hx hy hxdel => ?_,
      fun y hy hydel hyid => ?_, h.shown⟩
    · obtain rfl := hstored hy
      exact (h.stored m hm).of_edit (fun _ => huid) (Or.inl hid)
    · obtain rfl := hstored hy
      exact hdel (h.deleting x m hx hm hxdel)
    · obtain rfl := hstored hy
      refine h.backed m hm ?_ (hid ▸ hyid)
      rw [← Bool.not_eq_true]
      intro hmdel
      cases hydel.symm.trans (hdel hmdel)

/-- **A request to the API server** keeps it. A patch says nothing of whether
the object is being deleted, so that a deletion which has been asked for
meanwhile is not undone. -/
theorem Upheld.request (h : Upheld name uuid c host q s) {o : ApiOp} {r : o.Result} {a : ApiState}
    (ho : q.Allows (.api o)) (ha : apiSem s.api o r a) :
    Upheld name uuid c host (q.next (.api o) r) { s with api := a } := by
  have hserves := h.serves.request (fun o f m hedit hm =>
    (domainName_congr (ApiOp.edit_name hedit m).1 (ApiOp.edit_name hedit m).2).trans hm) ha
  rcases apiSem_cases ha with rfl | ⟨f, m, hedit, hm, -, rfl⟩
  · cases o with
    | getLibvirtMachine =>
      -- what was read is what is stored
      have hfound {x : LibvirtMachine}
          (hx : (q.next (.api .getLibvirtMachine) r).machine = some x) :
          s.api.machine = some x := by
        cases r with
        | error err => cases hx
        | ok y =>
          cases hx
          exact (apiSem_getLibvirtMachine ha).2 x rfl
      refine ⟨hserves, h.stored, fun x hx => h.stored x (hfound hx), h.hostOf, h.order,
        fun x m hx hm hdel => ?_, h.backed, fun _ _ _ hq => ?_⟩
      · cases (hfound hx).symm.trans hm
        exact hdel
      · rcases hq with hq | ⟨_, hq, -⟩
        · cases hq
        · cases hq
    | _ =>
      exact ⟨hserves, h.stored, h.read, h.hostOf, h.order, h.deleting, h.backed, h.shown⟩
  · rw [q.next_of_edit hedit] at hserves ⊢
    obtain ⟨-, -, huid, hid⟩ := ho.seen.identity hedit h.read m
    refine ⟨hserves, fun y hy => ?_, h.read, h.hostOf, h.order, fun x y hx hy hdel => ?_,
      fun y hy hdel hyid => ?_, h.shown⟩
    · obtain rfl := LibvirtMachine.eq_of_stores hy
      exact (h.stored m hm).of_edit (fun _ => huid) hid
    · obtain rfl := LibvirtMachine.eq_of_stores hy
      rw [ApiOp.edit_deletionTimestamp hedit]
      exact h.deleting x m hx hm hdel
    · obtain rfl := LibvirtMachine.eq_of_stores hy
      rw [ApiOp.edit_deletionTimestamp hedit] at hdel
      by_cases hkept : (f m).spec.providerID = m.spec.providerID
      · exact h.backed m hm hdel (hkept ▸ hyid)
      -- a provider ID that is new is written where the domain is up
      obtain ⟨before, after, err, hbefore, hexit, hf⟩ := ho.edit hedit
      have hset : after.spec.providerID ≠ before.spec.providerID := by
        intro heq
        rcases hf with rfl | rfl | rfl
        · exact hkept (if_pos heq)
        · exact hkept rfl
        · exact hkept rfl
      have hbefore' : before.deletionTimestamp = false := by
        rw [← Bool.not_eq_true]
        intro hbdel
        cases hdel.symm.trans (h.deleting before m hbefore hm hbdel)
      refine h.shown before hbefore hbefore' ?_
      rcases hexit.provides hset with ⟨-, hcreated⟩ | ⟨hstate, -⟩ | hstate
      · exact Or.inl hcreated
      · exact Or.inr ⟨_, hstate, nofun⟩
      · exact Or.inr ⟨_, hstate, nofun⟩

/-- A domain stays over an operation that is no deletion, whichever machine it
is for and whatever fails. -/
theorem provide_present {o : MachineOp} {w w' : World} {tr : List (Event ProviderSig)}
    {r : o.Result} (hdelete : ∀ cfg, o ≠ .deleteMachine cfg)
    (he : Prog.Exec providerSem (provide o) w tr w' r)
    (hp : (w.hosts host).present name = true) : (w'.hosts host).present name = true :=
  Prog.Calls.invariant (I := fun w : World => (w.hosts host).present name = true)
    (fun w o r w' hw hx (hs : providerSem w o r w') => providerSem_present hs hx hw)
    (provide_removes hdelete) hp he

/-- **An operation of the provider** keeps it. A deletion may take the domain
away, and it is called only for an object that is being deleted. -/
theorem Upheld.operate (h : Upheld name uuid c host q s) {o : MachineOp} {r : o.Result}
    {tr : List (Event ProviderSig)} {w : World} (ho : q.Allows (.provider o))
    (he : Prog.Exec providerSem (provide o) s.world tr w r) :
    Upheld name uuid c host (q.next (.provider o) r) { s with world := w } := by
  obtain ⟨x, cluster, c', hx, -, -, hc, hcfg, hgrants⟩ := ho
  obtain rfl := h.serves.seen c' hc
  have hname : o.cfg.domainName = name := (isFor_domainName hcfg).trans (h.serves.read x hx)
  have hhostOf : w.hostOf = s.world.hostOf :=
    he.keeps World.hostOf fun _ _ _ _ => providerSem_hostOf
  have hmachine : (q.next (.provider o) r).machine = q.machine :=
    q.next_machine (o := .provider o) nofun
  -- what the run did on the host
  have hrun : Orderly name uuid c'.spec.network (w.hosts host)
      ∧ o.Shows r ((w.hosts host).present name) := by
    rcases provide_exec he with ⟨rfl, -, hfails⟩ | ⟨host', tr', t, hhost, hx, -, rfl⟩
    · exact ⟨h.order, hfails.shows _⟩
    · rw [isFor_uri hcfg, h.hostOf] at hhost
      cases hhost
      rw [World.hosts_setHost_self]
      have hshows := provideOn_shows (E := fun _ _ => False) hx.disturb
      rw [hname] at hshows
      exact ⟨h.order.provideOn (Or.inl hname) hx, hshows⟩
  obtain ⟨horder, hshows⟩ := hrun
  have hkeep (hxdel : x.deletionTimestamp = false)
      (hp : (s.world.hosts host).present name = true) : (w.hosts host).present name = true := by
    refine provide_present ?_ he hp
    rintro cfg rfl
    cases hxdel.symm.trans hgrants.1
  refine ⟨h.serves.operate o, h.stored, fun m hm => h.read m (hmachine ▸ hm),
    (congrFun hhostOf _).trans h.hostOf, horder, fun y m hy => h.deleting y m (hmachine ▸ hy),
    fun m hm hdel hid => ?_, fun y hy hdel hq => ?_⟩
  · refine hkeep ?_ (h.backed m hm hdel hid)
    rw [← Bool.not_eq_true]
    intro hxdel
    cases hdel.symm.trans (h.deleting x m hx hm hxdel)
  · rw [hmachine, hx] at hy
    cases hy
    have hold := h.shown x hx hdel
    cases o with
    | getMachineState cfg =>
      rcases hq with hq | ⟨st, hst, hne⟩
      · exact hkeep hdel (hold (Or.inl hq))
      · cases r with
        | error err => cases hst
        | ok state =>
          cases hst
          exact (hshows _ rfl).mpr hne
    | createMachine cfg =>
      rcases hq with hq | hq
      · cases r with
        | error err => exact hkeep hdel (hold (Or.inl ((Bool.or_false _).symm.trans hq)))
        | ok _ => exact hshows rfl
      · exact hkeep hdel (hold (Or.inr hq))
    | startMachine cfg | getMachineAddress cfg => exact hkeep hdel (hold hq)
    | deleteMachine cfg => cases hdel.symm.trans hgrants.1

/-- **Every call of a reconcile** keeps it, be it to the API server or to the
provider. The calls are those that the monitor allows. -/
theorem Upheld.step (h : Upheld name uuid c host q s) {o : ControllerSig.Op}
    {r : ControllerSig.Ans o} (ho : q.Allows o) (hs : controllerSem s o r s') :
    Upheld name uuid c host (q.next o r) s' := by
  cases o with
  | api o =>
    obtain ⟨a, ha, rfl⟩ := controllerSem_api.mp hs
    exact h.request ho ha
  | provider o =>
    obtain ⟨tr, w, hw, rfl⟩ := controllerSem_provider.mp hs
    exact h.operate ho hw

end Upheld

/-! ## Runs -/

/-- The controller with what it works on. -/
abbrev Upkeep := Pool Unit Management ControllerSig Outcome

/-- Before the first reconcile. -/
def Upkeep.initial (s : Management) : Upkeep where
  state := s
  prog _ := .done {}

/-- **The runs**: reconciles one after the other, each cut off anywhere or not
at all, and between any two calls what happens around the machine. -/
def Upkeep.Reach (name uuid : String) (host : ℕ) : Upkeep → Upkeep → Prop :=
  Pool.Reach controllerSem (fun _ p => p = reconcile) (Around name uuid host) (fun _ _ => True)

/-- **Along every run, a machine can count on what it could count on at the
start.** The reconcile that is under way does not matter: a new one starts
from the same. -/
theorem Upkeep.Reach.upheld {name uuid : String} {c : LibvirtCluster} {host : ℕ} {s : Management}
    {p : Upkeep} (hs : Upheld name uuid c host {} s)
    (h : Upkeep.Reach name uuid host (.initial s) p) : Upheld name uuid c host {} p.state := by
  have hstart : Pool.Monitored (fun _ => courseMonitor)
      (fun q t => Upheld name uuid c host (q ()) t) (Upkeep.initial s) :=
    ⟨fun _ => {}, hs, fun _ => trivial⟩
  have hmonitored : Pool.Monitored (fun _ => courseMonitor)
      (fun q t => Upheld name uuid c host (q ()) t) p := by
    refine Pool.Monitored.reach (fun _ => {}) ?_ ?_ ?_ ?_ hstart h
    · rintro q t ⟨⟩ o r t' hq ho ht -
      rw [Function.update_self]
      exact hq.step ho ht
    · rintro q t ⟨⟩ hq
      rw [Function.update_self]
      exact hq.forget
    · rintro _ _ rfl
      exact reconcile_course
    · intro q t t' hq ht
      exact hq.around ht
  obtain ⟨q, hq, -⟩ := hmonitored
  exact hq.forget

end LibvirtProvider

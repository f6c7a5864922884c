import LibvirtProvider.Interleaving
import LibvirtProvider.Manager

/-!
# One identity for the object and the domain

The UUID of a machine's domain is computed twice over. As long as the object
has no provider ID it is the UID of the object, and from then on it is what
the provider ID says. Both have to come to the same, in every reconcile and in
whatever order creating the domain, failing to, patching the object and moving
it to another management cluster happen.

The manager runs call by call here, and between any two calls the object is
edited, domains are stopped or removed, and the host changes in any other way
(`Elsewhere`). The object gets a new UID only while its provider ID is set, and
nobody else makes a domain of the machine's name.
-/

namespace LibvirtProvider

open Interaction

/-! ## What the manager may do -/

/-- The monitor of a reconcile, down to libvirt: what it asks of the API server
is what `reconcileMonitor` allows, and the domains it defines have the name
and the UUID of the object it read. -/
def identityMonitor : Monitor ManagerSig (Option LibvirtMachine) where
  next q
    | .api .getLibvirtMachine, r => Except.toOption r
    | _, _ => q
  allows q
    | .api o => ∃ seen : Seen, seen.machine = q ∧ seen.Allows (.api o)
    | .provider (.libvirt _ x) => ∀ xml, x = .domainDefineXML xml →
      ∃ m, q = some m ∧ xml.name = domainName m ∧ xml.uuid = domainUUID m
    | .provider (.connect _) => True

/-- **The manager keeps to the monitor.** It follows from the monitor of the
reconcile and from what each operation defines, and needs no second look at
either program. -/
theorem manage_obeys : manage.Obeys identityMonitor (fun _ _ => True) none := by
  have hf : ∀ (q : Seen) (q' : Option LibvirtMachine) (o : ControllerSig.Op), q' = q.machine →
      reconcileMonitor.allows q o →
      (implement o).Obeys identityMonitor (fun q'' r => q'' = (reconcileMonitor.next q o r).machine)
        q' := by
    rintro q _ (o | o) rfl ho
    · refine ⟨⟨q, rfl, ho⟩, fun r => ?_⟩
      cases o <;> rfl
    · obtain ⟨m, c, hm, -, hcfg, -⟩ := ho
      have hprovide :
          (provide o).Calls fun x => identityMonitor.allows q.machine (.provider x) := by
        refine provide_calls (fun _ => trivial) fun conn x hx xml hxml => ?_
        obtain ⟨hname, huuid⟩ := hx xml hxml
        exact ⟨m, hm, hname.trans (isFor_domainName hcfg), huuid.trans (isFor_domainUUID hcfg)⟩
      have hcalls : (implement (.provider o)).Calls fun y : ManagerSig.Op =>
          ∃ x, y = ManagerOp.provider x ∧ identityMonitor.allows q.machine y :=
        hprovide.interp fun x hx => ⟨⟨x, rfl, hx⟩, fun _ => trivial⟩
      refine (hcalls.obeys (fun _ hy => hy.choose_spec.2) ?_).mono ?_
      · rintro _ r ⟨x, rfl, -⟩
        rfl
      · rintro _ r rfl
        cases o <;> rfl
  exact (Prog.Obeys.interp hf reconcile_obeys rfl).mono fun _ _ _ => trivial

/-! ## The identity -/

/-- The object stands for a UUID: by its provider ID, or by its UID as long as
it has none. In both cases it is the UUID that `domainUUID` computes. -/
def LibvirtMachine.Bears (uuid : String) (m : LibvirtMachine) : Prop :=
  m.spec.providerID = some (providerIDPrefix ++ uuid)
  ∨ m.spec.providerID = none ∧ m.uid = uuid

theorem LibvirtMachine.Bears.domainUUID_eq {uuid : String} {m : LibvirtMachine}
    (h : m.Bears uuid) : domainUUID m = uuid := by
  unfold domainUUID
  rcases h with h | ⟨h, huid⟩
  · rw [h]
    exact trimPrefix_append providerIDPrefix uuid
  · rw [h]
    exact huid

/-- **The identity**, for the object that was read and the state. The stored
object, the one a reconcile is working with and every domain of the name stand
for one UUID; the second is needed because a reconcile may store what it read
long ago. -/
structure Identified (name uuid : String) (q : Option LibvirtMachine) (s : Management) : Prop where
  stored : ∀ m, s.api.machine = some m → domainName m = name ∧ m.Bears uuid
  read : ∀ m, q = some m → domainName m = name ∧ m.Bears uuid
  domains : ∀ host, (s.world.hosts host).domains.Own name uuid

/-- The provider ID is persisted. -/
def Persisted (uuid : String) (s : Management) : Prop :=
  ∀ m, s.api.machine = some m → m.spec.providerID = some (providerIDPrefix ++ uuid)

/-- **What happens elsewhere**: the object is edited in any way that keeps its
name and its provider ID, and its UID as long as it has no provider ID; the
`LibvirtCluster` changes; and so do the hosts, except that no domain of the
machine's name is made. -/
inductive Elsewhere (name : String) (s : Management) : Management → Prop where
  | edit {m m' : LibvirtMachine} (hm : s.api.machine = some m) (hname : m'.name = m.name)
      (hnmspace : m'.nmspace = m.nmspace) (hproviderID : m'.spec.providerID = m.spec.providerID)
      (huid : m.spec.providerID = none → m'.uid = m.uid) :
      Elsewhere name s { s with api := { s.api with machine := m'.stores } }
  | cluster (c : Option LibvirtCluster) :
      Elsewhere name s { s with api := { s.api with libvirtCluster := c } }
  | hosts {w : World}
      (hw : ∀ host, (s.world.hosts host).domains.NoneNew name (w.hosts host).domains) :
      Elsewhere name s { s with world := w }

section Identified

variable {name uuid : String} {q : Option LibvirtMachine} {s s' : Management}

/-- **An allowed patch keeps what the object stands for**: it leaves the
provider ID as it is, or sets it to that of the object that was read. -/
theorem Seen.Allows.identity {seen : Seen} {o : ApiOp} {f : LibvirtMachine → LibvirtMachine}
    (h : seen.Allows (.api o)) (hf : o.edit = some f)
    (hread : ∀ m, seen.machine = some m → m.Bears uuid) (m : LibvirtMachine) :
    (f m).name = m.name ∧ (f m).nmspace = m.nmspace ∧ (f m).uid = m.uid
    ∧ ((f m).spec.providerID = m.spec.providerID
      ∨ (f m).spec.providerID = some (providerIDPrefix ++ uuid)) := by
  obtain ⟨before, after, hm, hchange, rfl | rfl | rfl⟩ := h.edit hf
  · refine ⟨rfl, rfl, rfl, ?_⟩
    show (if _ then _ else _) = _ ∨ (if _ then _ else _) = _
    split
    · exact Or.inl rfl
    · rename_i hne
      rcases hchange.providerID with heq | ⟨-, heq, -⟩
      · exact absurd heq hne
      · rw [(hread before hm).domainUUID_eq] at heq
        exact Or.inr heq
  · exact ⟨rfl, rfl, rfl, Or.inl rfl⟩
  · exact ⟨rfl, rfl, rfl, Or.inl rfl⟩

theorem LibvirtMachine.Bears.of_edit {m m' : LibvirtMachine} (h : m.Bears uuid)
    (huid : m.spec.providerID = none → m'.uid = m.uid)
    (hproviderID : m'.spec.providerID = m.spec.providerID
      ∨ m'.spec.providerID = some (providerIDPrefix ++ uuid)) : m'.Bears uuid := by
  rcases hproviderID with heq | heq
  · rcases h with h | ⟨h, hu⟩
    · exact Or.inl (heq.trans h)
    · exact Or.inr ⟨heq.trans h, (huid h).trans hu⟩
  · exact Or.inl heq

/-- Storing an edited object keeps the identity. -/
theorem Identified.store (h : Identified name uuid q s) {m m' : LibvirtMachine}
    (hm : s.api.machine = some m) (hname : m'.name = m.name) (hnmspace : m'.nmspace = m.nmspace)
    (huid : m.spec.providerID = none → m'.uid = m.uid)
    (hproviderID : m'.spec.providerID = m.spec.providerID
      ∨ m'.spec.providerID = some (providerIDPrefix ++ uuid)) :
    Identified name uuid q { s with api := { s.api with machine := m'.stores } } := by
  refine ⟨fun x hx => ?_, h.read, h.domains⟩
  obtain rfl : x = m' := LibvirtMachine.eq_of_stores hx
  obtain ⟨hn, hbears⟩ := h.stored m hm
  exact ⟨(domainName_congr hname hnmspace).trans hn, hbears.of_edit huid hproviderID⟩

/-- Storing an edited object keeps the provider ID. -/
theorem Persisted.store (h : Persisted uuid s) {m m' : LibvirtMachine}
    (hm : s.api.machine = some m)
    (hproviderID : m'.spec.providerID = m.spec.providerID
      ∨ m'.spec.providerID = some (providerIDPrefix ++ uuid)) :
    Persisted uuid { s with api := { s.api with machine := m'.stores } } := by
  intro x hx
  obtain rfl : x = m' := LibvirtMachine.eq_of_stores hx
  rcases hproviderID with heq | heq
  · exact heq.trans (h m hm)
  · exact heq

/-- A libvirt call of the manager keeps the identity. -/
theorem Identified.libvirt (huuid : uuid ≠ "") (h : Identified name uuid q s) {o : ProviderOp}
    {r : ProviderSig.Ans o} (ho : identityMonitor.allows q (.provider o)) {w : World}
    (hs : providerSem s.world o r w) : Identified name uuid q { s with world := w } := by
  refine ⟨h.stored, h.read, fun host => ?_⟩
  cases o with
  | connect c =>
    obtain ⟨rfl, -⟩ := providerSem_connect hs
    exact h.domains host
  | libvirt conn x =>
    obtain ⟨t, ht, rfl⟩ := providerSem_libvirt.mp hs
    by_cases hhost : host = conn.host
    · subst hhost
      rw [World.hosts_setHost_self]
      refine (h.domains conn.host).step huuid (fun xml hx hname => ?_) ht
      obtain ⟨m, hm, -, hu⟩ := ho xml hx
      exact hu.trans (h.read m hm).2.domainUUID_eq
    · rw [World.hosts_setHost_of_ne _ hhost]
      exact h.domains host

/-- **Every call of the manager keeps the identity**: a definition takes the
UUID of the object that was read, and a patch writes the provider ID of that
object or none. -/
theorem Identified.step (huuid : uuid ≠ "") (h : Identified name uuid q s) {o : ManagerSig.Op}
    {r : ManagerSig.Ans o} (ho : identityMonitor.allows q o) (hs : managerSem s o r s') :
    Identified name uuid (identityMonitor.next q o r) s' := by
  match o with
  | .provider o =>
    obtain ⟨w, hw, rfl⟩ := managerSem_provider.mp hs
    exact h.libvirt huuid ho hw
  | .api o =>
    obtain ⟨a, ha, rfl⟩ := managerSem_api.mp hs
    cases o with
    | getLibvirtMachine =>
      obtain ⟨rfl, hr⟩ := apiSem_getLibvirtMachine ha
      refine ⟨h.stored, fun m hm => ?_, h.domains⟩
      cases r with
      | error err => cases hm
      | ok m' =>
        cases hm
        exact h.stored m (hr m rfl)
    | _ =>
      obtain ⟨seen, rfl, hseen⟩ := ho
      rcases apiSem_cases ha with rfl | ⟨f, stored, hf, hstored, -, rfl⟩
      · exact h
      · obtain ⟨hname, hnmspace, huid, hproviderID⟩ :=
          hseen.identity hf (fun m hm => (h.read m hm).2) stored
        exact h.store hstored hname hnmspace (fun _ => huid) hproviderID

/-- What happens elsewhere keeps the identity. -/
theorem Identified.elsewhere (h : Identified name uuid q s) (hs : Elsewhere name s s') :
    Identified name uuid q s' := by
  cases hs with
  | edit hm hname hnmspace hproviderID huid =>
    exact h.store hm hname hnmspace huid (Or.inl hproviderID)
  | cluster c => exact ⟨h.stored, h.read, h.domains⟩
  | hosts hw => exact ⟨h.stored, h.read, fun host => (h.domains host).of_noneNew (hw host)⟩

/-- Every call of the manager keeps the provider ID. -/
theorem Persisted.step (hid : Identified name uuid q s) (h : Persisted uuid s)
    {o : ManagerSig.Op} {r : ManagerSig.Ans o} (ho : identityMonitor.allows q o)
    (hs : managerSem s o r s') : Persisted uuid s' := by
  match o with
  | .provider o =>
    obtain ⟨w, -, rfl⟩ := managerSem_provider.mp hs
    exact h
  | .api o =>
    obtain ⟨a, ha, rfl⟩ := managerSem_api.mp hs
    obtain ⟨seen, rfl, hseen⟩ := ho
    rcases apiSem_cases ha with rfl | ⟨f, stored, hf, hstored, -, rfl⟩
    · exact h
    · exact h.store hstored (hseen.identity hf (fun m hm => (hid.read m hm).2) stored).2.2.2

theorem Persisted.elsewhere (h : Persisted uuid s) (hs : Elsewhere name s s') :
    Persisted uuid s' := by
  cases hs with
  | edit hm _ _ hproviderID _ => exact h.store hm (Or.inl hproviderID)
  | cluster c => exact h
  | hosts hw => exact h

end Identified

/-! ## Runs of the manager -/

/-- The manager with what it works on. -/
abbrev Managed := Pool Unit Management ManagerSig Outcome

/-- The manager before its first reconcile. -/
def Managed.initial (s : Management) : Managed := ⟨s, fun _ => .done {}⟩

/-- **The runs of the manager**: reconciles one after the other, each cut off
anywhere or not at all, and between any two calls what happens elsewhere. -/
def Managed.Reach (name : String) : Managed → Managed → Prop :=
  Pool.Reach managerSem (fun _ p => p = manage) (Elsewhere name) (fun _ _ => True)

section Runs

variable {name uuid : String} {c c' : Managed}

/-- A relation between what was read and the state, as one of the pool. -/
abbrev Managed.Keeps (R : Option LibvirtMachine → Management → Prop) : Managed → Prop :=
  Pool.Monitored (fun _ => identityMonitor) (fun q s => R (q ()) s)

/-- **The identity holds along every run**, with the manager cut off anywhere
and the object moved to another management cluster in between. -/
theorem Managed.Reach.identified (huuid : uuid ≠ "")
    (h : Managed.Keeps (Identified name uuid) c) (hr : Managed.Reach name c c') :
    Managed.Keeps (Identified name uuid) c' := by
  refine Pool.Monitored.reach (fun _ => none) ?_ ?_ ?_ ?_ h hr
  · rintro q s ⟨⟩ o r s' hq ho hs -
    rw [Function.update_self]
    exact hq.step huuid ho hs
  · rintro q s ⟨⟩ hq
    rw [Function.update_self]
    exact ⟨hq.stored, nofun, hq.domains⟩
  · rintro _ _ rfl
    exact manage_obeys
  · intro q s s' hq hs
    exact hq.elsewhere hs

/-- **The provider ID is kept along every run**, once it is persisted. -/
theorem Managed.Reach.persisted (huuid : uuid ≠ "")
    (h : Managed.Keeps (Identified name uuid) c) (hp : Persisted uuid c.state)
    (hr : Managed.Reach name c c') : Persisted uuid c'.state := by
  obtain ⟨q, hq, hobeys⟩ := h
  have hmonitored : Managed.Keeps (fun q s => Identified name uuid q s ∧ Persisted uuid s) c' := by
    refine Pool.Monitored.reach (fun _ => none) ?_ ?_ ?_ ?_ ⟨q, ⟨hq, hp⟩, hobeys⟩ hr
    · rintro q s ⟨⟩ o r s' ⟨hid, hp⟩ ho hs -
      rw [Function.update_self]
      exact ⟨hid.step huuid ho hs, hp.step hid ho hs⟩
    · rintro q s ⟨⟩ ⟨hid, hp⟩
      rw [Function.update_self]
      exact ⟨⟨hid.stored, nofun, hid.domains⟩, hp⟩
    · rintro _ _ rfl
      exact manage_obeys
    · intro q s s' ⟨hid, hp⟩ hs
      exact ⟨hid.elsewhere hs, hp.elsewhere hs⟩
  obtain ⟨_, ⟨-, hp'⟩, -⟩ := hmonitored
  exact hp'

end Runs

/-- **Stable identity.** The object begins without a provider ID, and a domain
of its name that is on a host already is its own. In every run the provider ID
never changes once it is persisted, and in every reachable state a domain of
the machine's name has the UUID of the object, so that a persisted provider ID
is made of it. What carries this over `clusterctl move`, which gives the object
a new UID, is that `domainUUID` goes by the provider ID as soon as there is
one. -/
theorem identity_stable {s : Management} {m₀ : LibvirtMachine} (hm₀ : s.api.machine = some m₀)
    (hnone : m₀.spec.providerID = none) (huid : m₀.uid ≠ "")
    (hown : ∀ host d, (s.world.hosts host).domains.lookup (domainName m₀) = some d →
      d.uuid = m₀.uid)
    {c c' : Managed} (h : Managed.Reach (domainName m₀) (.initial s) c)
    (h' : Managed.Reach (domainName m₀) c c') :
    (∀ m p, c.state.api.machine = some m → m.spec.providerID = some p →
      ∀ m', c'.state.api.machine = some m' → m'.spec.providerID = some p)
    ∧ ∀ m host d, c.state.api.machine = some m →
      (c.state.world.hosts host).domains.lookup (domainName m) = some d →
      d.uuid = domainUUID m
      ∧ ∀ p, m.spec.providerID = some p → p = "libvirt://" ++ d.uuid := by
  have hinit : Managed.Keeps (Identified (domainName m₀) m₀.uid) (.initial s) := by
    refine ⟨fun _ => none, ⟨fun m hm => ?_, nofun, fun host d hd => ?_⟩, fun _ => trivial⟩
    · cases hm₀.symm.trans hm
      exact ⟨rfl, Or.inr ⟨hnone, rfl⟩⟩
    · exact hown host d hd
  have hid := h.identified huid hinit
  obtain ⟨q, hq, -⟩ := id hid
  constructor
  · intro m p hm hp
    -- what the object stands for says what its provider ID is
    obtain ⟨-, hbears | ⟨hp', -⟩⟩ := hq.stored m hm
    · cases hp.symm.trans hbears
      refine h'.persisted huid hid fun x hx => ?_
      cases hm.symm.trans hx
      exact hp
    · cases hp.symm.trans hp'
  · intro m host d hm hd
    obtain ⟨hname, hbears⟩ := hq.stored m hm
    rw [hname] at hd
    have hu : d.uuid = m₀.uid := hq.domains host d hd
    refine ⟨hu.trans hbears.domainUUID_eq.symm, fun p hp => ?_⟩
    rcases hbears with hbears | ⟨hp', -⟩
    · cases hp.symm.trans hbears
      rw [hu]
      rfl
    · cases hp.symm.trans hp'

/-! ### A run -/

/-- The manager is between two reconciles. -/
def Managed.Idle (c : Managed) (s : Management) : Prop :=
  c.state = s ∧ ∃ outcome, c.prog () = .done outcome

theorem Managed.Idle.reconcile {c : Managed} {s s' : Management} (h : Managed.Idle c s)
    (name : String) {cs : List ManagementChoice} (hs : reconcileOn cs s = some s') :
    ∃ c', Managed.Reach name c c' ∧ Managed.Idle c' s' := by
  obtain ⟨rfl, outcome, hidle⟩ := h
  obtain ⟨tr, outcome', he⟩ := exec_of_reconcileOn hs
  exact ⟨_, Pool.reach_of_start hidle rfl he, rfl, outcome', by simp⟩

theorem Managed.Idle.elsewhere {c : Managed} {s s' : Management} (h : Managed.Idle c s)
    {name : String} (hs : Elsewhere name s s') :
    ∃ c', Managed.Reach name c c' ∧ Managed.Idle c' s' := by
  obtain ⟨rfl, hidle⟩ := h
  exact ⟨⟨s', c.prog⟩, .single ⟨.env, .env hs, fun _ _ _ => trivial⟩, rfl, hidle⟩

/-- The finalizer is added; then the domain is started, but the patches fail;
and the next reconcile finds it running. -/
def untilPersisted : Option Management :=
  ((reconcileOn [] homeManagement).bind
    (reconcileOn (List.replicate 12 calm ++ List.replicate 3 outage))).bind (reconcileOn [])

/-- `clusterctl move`: the object comes with a new UID. -/
def Management.move (s : Management) (uid : String) : Option Management :=
  s.api.machine.map fun m =>
    { s with api := { s.api with machine := { m with uid := uid }.stores } }

theorem elsewhere_move {name uid : String} {s s' : Management} {m : LibvirtMachine}
    (hm : s.api.machine = some m) (hp : m.spec.providerID.isSome) (h : s.move uid = some s') :
    Elsewhere name s s' := by
  obtain ⟨x, hx, rfl⟩ := Option.map_eq_some_iff.mp h
  cases hm.symm.trans hx
  refine .edit hm rfl rfl rfl fun hnone => ?_
  rw [hnone] at hp
  cases hp

/-- The UID and the provider ID of the object, and whether the domain is on
the host. -/
def Management.identity (s : Management) : Option (String × Option String × Bool) :=
  s.api.machine.map fun m => (m.uid, m.spec.providerID,
    ((s.world.hosts 0).domains.lookup (domainName m)).isSome)

theorem reach_untilPersisted (name : String) {s : Management} (h : untilPersisted = some s) :
    ∃ c, Managed.Reach name (.initial homeManagement) c ∧ Managed.Idle c s := by
  obtain ⟨s₂, h₂, h₃⟩ := Option.bind_eq_some_iff.mp h
  obtain ⟨s₁, h₁, h₂⟩ := Option.bind_eq_some_iff.mp h₂
  have hidle : Managed.Idle (.initial homeManagement) homeManagement := ⟨rfl, {}, rfl⟩
  obtain ⟨c₁, hr₁, hidle₁⟩ := hidle.reconcile name h₁
  obtain ⟨c₂, hr₂, hidle₂⟩ := hidle₁.reconcile name h₂
  obtain ⟨c₃, hr₃, hidle₃⟩ := hidle₂.reconcile name h₃
  exact ⟨c₃, (hr₁.trans hr₂).trans hr₃, hidle₃⟩

theorem identity_stable_moved :
    ∃ c c' : Managed, Managed.Reach (domainName sampleMachine) (.initial homeManagement) c
      ∧ Managed.Reach (domainName sampleMachine) c c'
      ∧ ∃ m d, c'.state.api.machine = some m ∧ m.uid = "9e41f7a2"
        ∧ m.spec.providerID = some "libvirt://5d3b6c0e"
        ∧ (c'.state.world.hosts 0).domains.lookup (domainName m) = some d
        ∧ d.uuid = domainUUID m ∧ "libvirt://5d3b6c0e" = "libvirt://" ++ d.uuid := by
  have hrun : (untilPersisted.bind fun s => s.identity.bind fun i =>
      (s.move "9e41f7a2").bind fun s' => s'.identity.map fun i' => (i.2.1, i'.1, i'.2.2))
      = some (some "libvirt://5d3b6c0e", "9e41f7a2", true) := by decide +kernel
  obtain ⟨s, hs, hrun⟩ := Option.bind_eq_some_iff.mp hrun
  obtain ⟨i, hi, hrun⟩ := Option.bind_eq_some_iff.mp hrun
  obtain ⟨s', hs', hrun⟩ := Option.bind_eq_some_iff.mp hrun
  obtain ⟨i', hi', heq⟩ := Option.map_eq_some_iff.mp hrun
  obtain ⟨m, hm, rfl⟩ := Option.map_eq_some_iff.mp hi
  obtain ⟨m', hm', rfl⟩ := Option.map_eq_some_iff.mp hi'
  obtain ⟨hp, huid, hd⟩ : m.spec.providerID = some "libvirt://5d3b6c0e" ∧ m'.uid = "9e41f7a2"
      ∧ ((s'.world.hosts 0).domains.lookup (domainName m')).isSome = true := by simpa using heq
  obtain ⟨d, hd⟩ := Option.isSome_iff_exists.mp hd
  obtain ⟨c, hr, hidle⟩ := reach_untilPersisted (domainName sampleMachine) hs
  obtain ⟨c', hr', rfl, -⟩ := hidle.elsewhere (elsewhere_move hm (hp ▸ rfl) hs')
  have hown : ∀ host d, (homeManagement.world.hosts host).domains.lookup
      (domainName sampleMachine) = some d → d.uuid = sampleMachine.uid := by
    intro host d hd
    cases (AList.lookup_insert _).symm.trans hd
    rfl
  have hkept := (identity_stable rfl rfl (by decide) hown hr hr').1 m _ (hidle.1 ▸ hm) hp m' hm'
  obtain ⟨huuid, hprovider⟩ :=
    (identity_stable rfl rfl (by decide) hown (hr.trans hr') .refl).2 m' 0 d hm' hd
  exact ⟨c, c', hr, hr', m', d, hm', huid, hkept, hd, huuid, hprovider _ hkept⟩

end LibvirtProvider

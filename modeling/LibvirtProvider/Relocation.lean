import LibvirtProvider.Standstill

/-!
# Where a machine was made and where it is deleted

The host, the pool and the network of a machine are read from the spec of the
`LibvirtCluster` in every reconcile. Nothing records where the machine was
made. When the spec was edited in between, the machine is deleted at another
site than it was made at. What that comes to depends on whether errors are
recognised.

With a binding that returns its errors by value, a machine of which nothing is
on any host stays so, whatever site it is reconciled at, and a deletion at a
site without it fails. So the finalizer never goes while something is left
(`removal_gone`).

With errors that are recognised, what is not there counts as deleted, and the
deletion succeeds at a site where the machine never was. `World.Gone` says that
no host has anything of the machine, `World.Confined` that nothing of it is
outside of a site. Every operation is local to the site of its config, so that
a deletion leaves the machine gone exactly when it was confined to the site of
the spec at that time (`removal_gone_iff`).
-/

namespace LibvirtProvider

open Interaction

/-! ## What a machine has on a host -/

/-- What a machine has on a host, by kind and by where it is. -/
inductive Resource where
  | domain
  | volume (pool : String)
  | reservation (network : String)

/-- The resource is in a pool or a network. -/
def Resource.At (pool net : String) : Resource → Prop
  | .domain => True
  | .volume p => p = pool
  | .reservation n => n = net

/-- **A host has a resource of the machine.** Volumes go by name and entries
by MAC, wherever they are on the host; which pool and network a deletion looks
at is not asked here. -/
def Host.Has (s : Host) (d : String) : Resource → Prop
  | .domain => (s.domains.lookup d).isSome
  | .volume pool => (s.storage.volume pool (d ++ ".qcow2")).isSome
    ∨ (s.storage.volume pool ("cloudinit-" ++ d ++ ".iso")).isSome
  | .reservation net => ∃ network, s.networks net = some network
    ∧ ∃ e ∈ network.hosts, foldKey e.mac = foldKey (deriveDomainMAC d)

/-- A host is clean when it has none of the resources a deletion is about. -/
theorem clean_iff {cfg : MachineConfig} {s : Host} :
    Clean cfg s ↔ ∀ x : Resource, x.At cfg.domainPool cfg.network → ¬ s.Has cfg.domainName x := by
  constructor
  · rintro ⟨hdomain, hroot, hiso, hentry⟩ x hx
    cases x with
    | domain => simp [Host.Has, hdomain]
    | volume pool =>
      obtain rfl : pool = cfg.domainPool := hx
      rw [MachineConfig.domainDiskName] at hroot
      rw [MachineConfig.isoDiskName] at hiso
      simp [Host.Has, hroot, hiso]
    | reservation net =>
      obtain rfl : net = cfg.network := hx
      rintro ⟨network, hn, e, he, hmac⟩
      exact hentry network hn e he hmac
  · intro h
    have hvolume := h (.volume cfg.domainPool) rfl
    simp only [Host.Has, not_or, Bool.not_eq_true, Option.isSome_eq_false_iff,
      Option.isNone_iff_eq_none] at hvolume
    refine ⟨?_, hvolume.1, hvolume.2, ?_⟩
    · simpa [Host.Has] using h .domain trivial
    · intro network hn e he hmac
      exact h (.reservation cfg.network) rfl ⟨network, hn, e, he, hmac⟩

/-! ## Operations are local -/

/-- **A run concerns one pool and one network**: elsewhere on the host, the
machine has what it had. Domains belong to the host and are within reach of
every operation on it. -/
def Local (d pool net : String) (s s' : Host) : Prop :=
  ∀ x : Resource, ¬ x.At pool net → (s'.Has d x ↔ s.Has d x)

instance (d pool net : String) : Std.Refl (Local d pool net) where
  refl _ _ _ := Iff.rfl

instance (d pool net : String) : IsTrans Host (Local d pool net) where
  trans _ _ _ h h' x hx := (h' x hx).trans (h x hx)

/-- The calls that stay with a pool and a network. -/
def LibvirtOp.near (pool net : String) : LibvirtOp → Bool
  | .storageVolCreateXML p _ _ => p.name == pool
  | .deleteVol vol _ => vol.pool == pool
  | .network n _ => n.name == net
  | _ => true

section Local

variable {α : Type} {d pool net : String}

theorem libvirtSem_local {s s' : Host} {o : LibvirtOp} {r : LibvirtSig.Ans o}
    (ho : o.near pool net = true) (h : libvirtSem s o r s') : Local d pool net s s' := by
  intro x hx
  cases x with
  | domain => exact absurd trivial hx
  | volume p =>
    have hvolume (name : String) :
        (s'.storage.volume p name).isSome = (s.storage.volume p name).isSome := by
      refine libvirtSem_volume_isSome h ?_ ?_ name
      · rintro ref xml flags rfl rfl
        exact hx (beq_iff_eq.mp ho)
      · rintro vol flags rfl rfl
        exact hx (beq_iff_eq.mp ho)
    simp only [Host.Has, hvolume]
  | reservation n =>
    have hnetwork : s'.networks n = s.networks n := by
      cases o with
      | network ref o =>
        rcases libvirtSem_network h with ⟨rfl, -⟩ | ⟨_, _, -, -, rfl⟩
        · rfl
        · have hne : n ≠ ref.name := fun heq => hx (heq.trans (beq_iff_eq.mp ho))
          exact Function.update_of_ne hne _ _
      | _ => rw [libvirtSem_networks h rfl]
    simp only [Host.Has, hnetwork]

theorem local_of_calls {p : Prog LibvirtSig α} (hp : p.Calls (LibvirtOp.near pool net · = true)) :
    Prog.Within libvirtSem (Local d pool net) p :=
  hp.within fun _ _ _ _ ho hs => libvirtSem_local ho hs

theorem local_createDomain (cfg : MachineConfig) :
    Prog.Within libvirtSem (Local d cfg.domainPool cfg.network) (createDomain cfg).run := by
  have hq : ∀ o : LibvirtOp, o.asksStorage = true →
      o.near cfg.domainPool cfg.network = true := by
    intro o ho
    cases o <;> first | rfl | cases ho
  have hs : ∀ o : LibvirtOp, o.streams = true → o.near cfg.domainPool cfg.network = true := by
    intro o ho
    cases o <;> first | rfl | cases ho
  have hpool (xml : StorageVolume) : LibvirtOp.near cfg.domainPool cfg.network
      (.storageVolCreateXML ⟨cfg.domainPool⟩ xml 0) = true := beq_self_eq_true _
  refine .bind_results (local_of_calls (.adapt ⟨rfl, fun _ => trivial⟩)) ?_
  intro s tr s' domainPool hx
  obtain ⟨rfl, -⟩ := libvirtSem_lookupStoragePoolByName_ok
    (Prog.exec_perform.mp (Prog.exec_adapt_ok.mp hx)).1
  refine .bind_except (local_of_calls (.adapt ⟨rfl, fun _ => trivial⟩)) fun basePool =>
    .bind_except (local_of_calls (.adapt (createRootDisk_calls hq fun xml _ => hpool xml)))
      fun diskPath =>
    .bind_except (local_of_calls (.adapt (createISODisk_calls hq (fun xml _ => hpool xml) hs)))
      fun cloudISOPath =>
    .bind_results (local_of_calls (.adapt ⟨rfl, fun _ => trivial⟩)) ?_
  intro s tr s' network hx
  obtain ⟨rfl, -⟩ := libvirtSem_lookupNetworkByName_ok
    (Prog.exec_perform.mp (Prog.exec_adapt_ok.mp hx)).1
  exact .bind_except (local_of_calls (onNetwork_calls (fun _ => beq_self_eq_true _) _)) fun _ =>
    local_of_calls (defineAndStart_calls rfl (fun _ => rfl) fun _ => rfl)

theorem local_deleteVolume (name : String) :
    Prog.Within libvirtSem (Local d pool net) (deleteVolume pool name).run := by
  refine .lift_bind_results (local_of_calls ⟨rfl, fun _ => trivial⟩) ?_
  rintro s tr s' (err | found) hx
  · dsimp only
    split <;> exact .done _
  obtain ⟨rfl, -⟩ := libvirtSem_lookupStoragePoolByName_ok (Prog.exec_perform.mp hx).1
  refine .lift_bind_results (local_of_calls ⟨rfl, fun _ => trivial⟩) ?_
  rintro s tr s' (err | vol) hx
  · dsimp only
    split <;> exact .done _
  obtain rfl := libvirtSem_lookupStorageVolByName_ok (Prog.exec_perform.mp hx).1
  exact local_of_calls (.adapt ⟨beq_self_eq_true _, fun _ => trivial⟩)

theorem local_deleteResources (cfg : MachineConfig) :
    Prog.Within libvirtSem (Local d cfg.domainPool cfg.network) (deleteResources cfg).run := by
  have hq : ∀ o : LibvirtOp, o.isQuery = true → o.near cfg.domainPool cfg.network = true := by
    intro o ho
    cases o <;> first | rfl | cases ho
  refine .bind_except (local_of_calls (deleteDomain_calls hq (fun _ => rfl) (fun _ => rfl) _))
    fun _ => .bind_except (local_deleteVolume _) fun _ => .bind_except (local_deleteVolume _)
      fun _ => .lift_bind_results (local_of_calls ⟨rfl, fun _ => trivial⟩) ?_
  rintro s tr s' (err | network) hx
  · dsimp only
    split <;> exact .done _
  obtain ⟨rfl, -⟩ := libvirtSem_lookupNetworkByName_ok (Prog.exec_perform.mp hx).1
  exact local_of_calls (onNetwork_calls (fun _ => beq_self_eq_true _) _)

/-- **Every operation is local.** What the machine has in another pool or
network of the host is neither added to nor taken away. -/
theorem local_provideOn (o : MachineOp) :
    Prog.Within libvirtSem (Local d o.cfg.domainPool o.cfg.network) (provideOn o) := by
  cases o with
  | createMachine cfg => exact local_createDomain cfg
  | deleteMachine cfg => exact local_deleteResources cfg
  | getMachineState cfg =>
    refine .lift_bind (local_of_calls ⟨rfl, fun _ => trivial⟩) fun r => ?_
    cases r with
    | error err =>
      dsimp only
      split <;> exact .done _
    | ok dom =>
      exact .bind_except (local_of_calls (.adapt ⟨rfl, fun _ => trivial⟩)) fun _ => .done _
  | startMachine cfg =>
    exact .bind_except (local_of_calls (.adapt ⟨rfl, fun _ => trivial⟩)) fun _ =>
      local_of_calls (.adapt ⟨rfl, fun _ => trivial⟩)
  | getMachineAddress cfg =>
    refine .bind_results (local_of_calls (.adapt ⟨rfl, fun _ => trivial⟩)) ?_
    intro s tr s' network hx
    obtain ⟨rfl, -⟩ := libvirtSem_lookupNetworkByName_ok
      (Prog.exec_perform.mp (Prog.exec_adapt_ok.mp hx)).1
    exact local_of_calls (onNetwork_calls (fun _ => beq_self_eq_true _) _)

end Local

/-! ## Sites -/

/-- What a place comes to: the host its URI leads to, with the pool and the
network. -/
structure Site where
  host : ℕ
  pool : String
  network : String

/-- The resource of a host is at the site. -/
def Site.Holds (site : Site) (host : ℕ) (x : Resource) : Prop :=
  host = site.host ∧ x.At site.pool site.network

namespace World

variable (w : World) (d : String)

/-- The site of a place. -/
def siteOf (p : Place) : Option Site :=
  (w.hostOf p.uri).map fun host => ⟨host, p.domainPool, p.network⟩

/-- **Nothing of the machine is on any host.** This is what the removal of the
finalizer should stand for. -/
def Gone : Prop := ∀ host x, ¬ (w.hosts host).Has d x

/-- **Nothing of the machine is outside of a site.** A deletion at the site
then reaches all of it. -/
def Confined (site : Site) : Prop := ∀ host x, (w.hosts host).Has d x → site.Holds host x

variable {w d}

theorem Gone.confined (h : w.Gone d) (site : Site) : w.Confined d site :=
  fun host x hx => absurd hx (h host x)

end World

section Operations

variable {d : String} {w w' : World} {o : MachineOp} {tr : List (Event ProviderSig)}

/-- **An operation changes nothing outside of its site**, so that what is
there before it is there after it, and the other way round. -/
theorem provide_confined {r : o.Result} {site : Site}
    (h : Prog.Exec providerSem (provide o) w tr w' r) (hsite : w.siteOf o.cfg.place = some site) :
    w'.Confined d site ↔ w.Confined d site := by
  have hsame (host : ℕ) (x : Resource) (hx : ¬ site.Holds host x) :
      (w'.hosts host).Has d x ↔ (w.hosts host).Has d x := by
    rcases provide_exec h with ⟨rfl, -⟩ | ⟨host', tr', s', hhost, he, -, rfl⟩
    · exact Iff.rfl
    obtain ⟨_, hhost', rfl⟩ := Option.map_eq_some_iff.mp hsite
    obtain rfl := Option.some.inj (hhost.symm.trans hhost')
    by_cases heq : host = host'
    · subst heq
      rw [World.hosts_setHost_self]
      exact local_provideOn o _ _ _ _ he x fun hat => hx ⟨rfl, hat⟩
    · rw [World.hosts_setHost_of_ne _ heq]
  constructor
  · intro hc host x hx
    by_contra hout
    exact hout (hc host x ((hsame host x hout).mpr hx))
  · intro hc host x hx
    by_contra hout
    exact hout (hc host x ((hsame host x hout).mp hx))

/-- **A deletion empties its site**, when `IsActive` does not fail: the machine
is gone when it is nowhere else. -/
theorem deleteMachine_gone {cfg : MachineConfig}
    (hsole : ∀ host, SoleOn cfg.domainName cfg.network host w)
    (h : Prog.Exec providerSem (deleteMachine cfg).run w tr w' (.ok ()))
    (hquiet : ∀ ev ∈ tr, failedIsActiveOn ev = false) :
    ∃ site, w.siteOf cfg.place = some site
      ∧ (w'.Gone cfg.domainName ↔ w'.Confined cfg.domainName site) := by
  rcases connected_exec h with ⟨⟨_, hr⟩, -⟩ | ⟨host, tr', s', hhost, hx, rfl, rfl⟩
  · cases hr
  have hactive : tr'.any failedIsActive = false := by
    rw [List.any_eq_false]
    intro ev hev
    rw [← failedIsActiveOn_event ⟨host⟩ ev,
      hquiet _ (List.mem_cons_of_mem _ (List.mem_map_of_mem hev))]
    exact Bool.false_ne_true
  have hclean : Clean cfg s' := by
    refine (deleteResources_exec (hsole host) hx).2.mpr fun hrunning => ?_
    rw [hactive] at hrunning
    cases hrunning.2
  refine ⟨⟨host, cfg.domainPool, cfg.network⟩, ?_, fun hgone => hgone.confined _, ?_⟩
  · exact Option.map_eq_some_iff.mpr ⟨host, hhost, rfl⟩
  · intro hconfined host' x hx
    obtain ⟨rfl, hat⟩ := hconfined host' x hx
    rw [World.hosts_setHost_self] at hx
    exact clean_iff.mp hclean x hat hx

theorem networksRun_provideOn (o : MachineOp) :
    Prog.Within libvirtSem (NetworksRun o.cfg.domainName) (provideOn o) := by
  cases o with
  | createMachine cfg => exact networksRun_createDomain cfg
  | deleteMachine cfg => exact networksRun_deleteResources cfg
  | getMachineState cfg =>
    refine .lift_bind (networksRun_of_calls ⟨rfl, fun _ => trivial⟩) fun r => ?_
    cases r with
    | error err =>
      dsimp only
      split <;> exact .done _
    | ok dom =>
      exact .bind_except (networksRun_of_calls (.adapt ⟨rfl, fun _ => trivial⟩)) fun _ => .done _
  | startMachine cfg =>
    exact .bind_except (networksRun_of_calls (.adapt ⟨rfl, fun _ => trivial⟩)) fun _ =>
      networksRun_of_calls (.adapt ⟨rfl, fun _ => trivial⟩)
  | getMachineAddress cfg =>
    intro s tr s' r h
    exact networksRun_of_networks_eq (congrArg Host.networks (machineAddressOn_exec h))

/-- An operation of the machine leaves its entries alone. -/
theorem SoleOn.provide {net : String} {host : ℕ} {r : o.Result}
    (h : SoleOn o.cfg.domainName net host w)
    (he : Prog.Exec providerSem (provide o) w tr w' r) : SoleOn o.cfg.domainName net host w' := by
  have hp := networksRun_provideOn o
  cases o <;> exact h.connected (Or.inl rfl) hp he

end Operations

/-! ## A reconcile -/

/-- The site that the spec names. -/
def Management.site (s : Management) : Option Site :=
  s.api.libvirtCluster.bind fun c => s.world.siteOf c.spec.place

/-- **The machine is placed**: nothing of it is outside of the site that the
spec names. It is lost by an edit of the spec and by nothing else. -/
def Management.Placed (d : String) (s : Management) : Prop :=
  ∀ site, s.site = some site → s.world.Confined d site

/-- A call of `IsActive` that failed, within a reconcile. -/
def failedIsActiveIn : Event ManagerSig → Bool
  | ⟨.provider o, r⟩ => failedIsActiveOn ⟨o, r⟩
  | ⟨.api _, _⟩ => false

/-- **What a reconcile keeps**: the object is the machine's, its entries stand
alone, and nothing changes outside of the site of the spec. -/
structure Tracks (d : String) (s₀ : Management) (q : Seen) (s : Management) : Prop where
  cluster : s.api.libvirtCluster = s₀.api.libvirtCluster
  hostOf : s.world.hostOf = s₀.world.hostOf
  stored : ∀ m, s.api.machine = some m → domainName m = d
  machine : ∀ m, q.machine = some m → domainName m = d
  seenCluster : ∀ c, q.libvirtCluster = some c → s₀.api.libvirtCluster = some c
  sole : ∀ host net, SoleOn d net host s.world
  kept : ∀ site, s₀.site = some site → (s.world.Confined d site ↔ s₀.world.Confined d site)

/-- **What a reconcile knows of the finalizer**: it is there until the machine
is deleted; and then, if `IsActive` did not fail, the machine is gone unless it
is outside of the site of the spec. -/
structure Removal (d : String) (quiet : Prop) (s₀ : Management) (q : Seen) (s : Management) :
    Prop where
  guarded : q.deleted = false → s₀.api.Guarded → s.api.Guarded
  deleting : q.deleted = true → ∃ m, q.machine = some m ∧ m.deletionTimestamp = true
  deleted : quiet → q.deleted = true →
    ∃ site, s₀.site = some site ∧ (s.world.Gone d ↔ s.world.Confined d site)

section Tracks

variable {d : String} {quiet : Prop} {s₀ s : Management} {q : Seen}

theorem Tracks.request (h : Tracks d s₀ q s) {o : ApiOp} {r : o.Result} {a : ApiState}
    (hs : apiSem s.api o r a) : Tracks d s₀ (q.next (.api o) r) { s with api := a } := by
  rcases apiSem_cases hs with rfl | ⟨f, stored, hf, hstored, -, rfl⟩
  · cases o with
    | getLibvirtMachine =>
      refine ⟨h.cluster, h.hostOf, h.stored, fun m hm => ?_, nofun, h.sole, h.kept⟩
      cases r with
      | error err => cases hm
      | ok m' =>
        cases hm
        exact h.stored m ((apiSem_getLibvirtMachine hs).2 m rfl)
    | getLibvirtCluster key =>
      refine ⟨h.cluster, h.hostOf, h.stored, h.machine, fun c hc => ?_, h.sole, h.kept⟩
      cases r with
      | error err => cases hc
      | ok c' =>
        cases hc
        exact h.cluster.symm.trans ((apiSem_getLibvirtCluster hs).2 c rfl)
    | _ => exact h
  · have hnext : q.next (.api o) r = q := by cases o <;> first | rfl | cases hf
    rw [hnext]
    refine ⟨h.cluster, h.hostOf, fun m hm => ?_, h.machine, h.seenCluster, h.sole, h.kept⟩
    obtain rfl := LibvirtMachine.eq_of_stores hm
    obtain ⟨hname, hnmspace⟩ := ApiOp.edit_name hf stored
    exact (domainName_congr hname hnmspace).trans (h.stored stored hstored)

theorem Removal.request (h : Removal d quiet s₀ q s) {o : ApiOp} (ho : q.Allows (.api o))
    {r : o.Result} {a : ApiState} (hs : apiSem s.api o r a) :
    Removal d quiet s₀ (q.next (.api o) r) { s with api := a } := by
  cases o with
  | getLibvirtMachine =>
    -- the object is read before anything is deleted
    have hnot : q.deleted = false := by
      by_contra hdel
      obtain ⟨m, hm, -⟩ := h.deleting (Bool.eq_true_of_not_eq_false hdel)
      cases ho.symm.trans hm
    exact ⟨fun _ hg => (h.guarded hnot hg).request ho hnot hs, nofun, nofun⟩
  | _ => exact ⟨fun hnot hg => (h.guarded hnot hg).request ho hnot hs, h.deleting, h.deleted⟩

/-- The site an operation works at is the one of the spec. -/
theorem Tracks.siteOf_eq (h : Tracks d s₀ q s) {cfg : MachineConfig} {m : LibvirtMachine}
    {c : LibvirtCluster} (hc : q.libvirtCluster = some c) (hcfg : cfg.IsFor m c) :
    s.world.siteOf cfg.place = s₀.site := by
  rw [Management.site, h.seenCluster c hc, hcfg.place_eq]
  simp only [World.siteOf, h.hostOf, Option.bind_some]

theorem Tracks.operate (h : Tracks d s₀ q s) {o : MachineOp} (ho : q.Allows (.provider o))
    {tr : List (Event ProviderSig)} {r : o.Result} {w : World}
    (he : Prog.Exec providerSem (provide o) s.world tr w r) :
    Tracks d s₀ (q.next (.provider o) r) { s with world := w } := by
  obtain ⟨m, c, hm, hc, hcfg, -⟩ := ho
  have hname : o.cfg.domainName = d := (isFor_domainName hcfg).trans (h.machine m hm)
  have hnext : (q.next (.provider o) r).machine = q.machine
      ∧ (q.next (.provider o) r).libvirtCluster = q.libvirtCluster := by
    cases o <;> exact ⟨rfl, rfl⟩
  have hhostOf : w.hostOf = s.world.hostOf :=
    he.keeps World.hostOf fun _ _ _ _ => providerSem_hostOf
  have hsole (host : ℕ) (net : String) : SoleOn d net host w := by
    subst hname
    exact (h.sole host net).provide he
  refine ⟨h.cluster, hhostOf.trans h.hostOf, h.stored, hnext.1 ▸ h.machine,
    hnext.2 ▸ h.seenCluster, hsole, fun site hsite => ?_⟩
  exact (provide_confined he ((h.siteOf_eq hc hcfg).trans hsite)).trans (h.kept site hsite)

theorem Removal.operate (ht : Tracks d s₀ q s) (h : Removal d quiet s₀ q s) {o : MachineOp}
    (ho : q.Allows (.provider o)) {tr : List (Event ProviderSig)} {r : o.Result} {w : World}
    (he : Prog.Exec providerSem (provide o) s.world tr w r)
    (hquiet : quiet → ∀ ev ∈ tr, failedIsActiveOn ev = false) :
    Removal d quiet s₀ (q.next (.provider o) r) { s with world := w } := by
  obtain ⟨m, c, hm, hc, hcfg, ho⟩ := ho
  have hnot : q.deleted = false := by
    by_contra hdel
    obtain ⟨m', hm', hdel'⟩ := h.deleting (Bool.eq_true_of_not_eq_false hdel)
    cases hm.symm.trans hm'
    cases o with
    | deleteMachine cfg => exact hdel ho.2
    | createMachine cfg => cases hdel'.symm.trans ho.1
    | startMachine cfg => cases hdel'.symm.trans ho.1
    | getMachineState cfg => cases hdel'.symm.trans ho
    | getMachineAddress cfg => cases hdel'.symm.trans ho
  cases o with
  | deleteMachine cfg =>
    refine ⟨fun _ => h.guarded hnot, fun _ => ⟨m, hm, ho.1⟩, fun hq hdel => ?_⟩
    match r with
    | .error err => cases hnot.symm.trans ((Bool.or_false _).symm.trans hdel)
    | .ok () =>
      have hname : cfg.domainName = d := (isFor_domainName hcfg).trans (ht.machine m hm)
      subst hname
      obtain ⟨site, hsite, hgone⟩ := deleteMachine_gone (fun host => ht.sole host _) he (hquiet hq)
      exact ⟨site, (ht.siteOf_eq hc hcfg).symm.trans hsite, hgone⟩
  | _ => exact ⟨h.guarded, h.deleting, fun _ hdel => absurd hdel (by simp [Seen.next, hnot])⟩

/-- **A reconcile tracks the machine**: its operations are all at the site of
the spec that it read. That the cluster is read once in a reconcile is what
makes this one site. -/
theorem manage_tracks (quiet : Prop) (ht : Tracks d s₀ {} s₀) {tr : List (Event ManagerSig)}
    {s' : Management} {outcome : Outcome} (he : Prog.Exec managerSem manage s₀ tr s' outcome)
    (hquiet : quiet → ∀ ev ∈ tr, failedIsActiveIn ev = false) :
    ∃ q, Tracks d s₀ q s' ∧ Removal d quiet s₀ q s' := by
  have hstart : Removal d quiet s₀ {} s₀ := ⟨fun _ => id, nofun, nofun⟩
  suffices hrun : (∃ q, (Tracks d s₀ q s' ∧ Removal d quiet s₀ q s') ∧ True) ∧ ∀ ev ∈ tr, True by
    obtain ⟨⟨q, hq, -⟩, -⟩ := hrun
    exact ⟨q, hq⟩
  refine reconcile_obeys.interp_exec (R := fun q s => Tracks d s₀ q s ∧ Removal d quiet s₀ q s)
    (H := fun ev => quiet → failedIsActiveIn ev = false) (G := fun _ => True) ?_ ⟨ht, hstart⟩
    (fun ev hev hq => hquiet hq ev hev) he
  rintro q s (o | o) tr r s' ⟨ht, hr⟩ ho hquiet hx
  · obtain ⟨hs, rfl⟩ := Prog.exec_perform.mp hx
    obtain ⟨a, ha, rfl⟩ := managerSem_api.mp hs
    exact ⟨⟨ht.request ha, hr.request ho ha⟩, fun _ _ => trivial⟩
  · obtain ⟨tr', w, hw, rfl, rfl⟩ := exec_provider.mp hx
    exact ⟨⟨ht.operate ho hw, hr.operate ht ho hw fun hq ev hev =>
      hquiet _ (List.mem_map_of_mem hev) hq⟩, fun _ _ => trivial⟩

end Tracks

/-! ## The life of a machine -/

/-- **What happens to a machine**: it is reconciled, whichever calls fail; its
object is edited or asked to be deleted; and the `LibvirtCluster` is edited in
any way the API server accepts, leading to a state in `E`. With `E` the edits
can be restricted, for a result that does not hold for all of them. -/
inductive LifeStep (E : Management → Prop) (s : Management) : Management → Prop where
  | reconcile {s' : Management} {tr : List (Event ManagerSig)} {outcome : Outcome}
      (h : Prog.Exec managerSem manage s tr s' outcome) : LifeStep E s s'
  | edit {m m' : LibvirtMachine} (hm : s.api.machine = some m) (hname : m'.name = m.name)
      (hnmspace : m'.nmspace = m.nmspace) :
      LifeStep E s { s with api := { s.api with machine := m'.stores } }
  | relocate {c : Option LibvirtCluster} (hc : ∀ x, c = some x → x.spec.valid = true)
      (hE : E { s with api := { s.api with libvirtCluster := c } }) :
      LifeStep E s { s with api := { s.api with libvirtCluster := c } }

/-- Any number of them. -/
abbrev Life (E : Management → Prop) : Management → Management → Prop :=
  Relation.ReflTransGen (LifeStep E)

/-- A reconcile removes the finalizer. -/
def Removes (s s' : Management) : Prop := s.api.Guarded ∧ ¬ s'.api.Guarded

/-- What holds all along: the object is the machine's, and its entries stand
alone. -/
structure Settled (d : String) (s : Management) : Prop where
  stored : ∀ m, s.api.machine = some m → domainName m = d
  sole : ∀ host net, SoleOn d net host s.world

section Life

variable {d : String} {E : Management → Prop} {s s' : Management}

theorem Settled.tracks (h : Settled d s) : Tracks d s {} s :=
  ⟨rfl, rfl, h.stored, nofun, nofun, h.sole, fun _ _ => Iff.rfl⟩

theorem Settled.of_gone {m : LibvirtMachine} (hm : s.api.machine = some m)
    (h : s.world.Gone (domainName m)) : Settled (domainName m) s where
  stored m' hm' := by
    cases hm.symm.trans hm'
    rfl
  sole host net network hn := .of_none fun e he hmac =>
    h host (.reservation net) ⟨network, hn, e, he, hmac⟩

theorem Settled.step (h : Settled d s) (hs : LifeStep E s s') : Settled d s' := by
  cases hs with
  | reconcile he =>
    obtain ⟨q, ht, -⟩ := manage_tracks False h.tracks he nofun
    exact ⟨ht.stored, ht.sole⟩
  | edit hm hname hnmspace =>
    refine ⟨fun m hm' => ?_, h.sole⟩
    obtain rfl := LibvirtMachine.eq_of_stores hm'
    exact (domainName_congr hname hnmspace).trans (h.stored _ hm)
  | relocate => exact ⟨h.stored, h.sole⟩

/-- **Only edits of the spec displace a machine.** The operations are at the
site of the spec, so what they make is in place. -/
theorem Settled.placed_step (h : Settled d s) (hp : s.Placed d) (hE : ∀ s, E s → s.Placed d)
    (hs : LifeStep E s s') : s'.Placed d := by
  cases hs with
  | reconcile he =>
    obtain ⟨q, ht, -⟩ := manage_tracks False h.tracks he nofun
    intro site hsite
    have hsame : s'.site = s.site := by
      simp only [Management.site, World.siteOf, ht.cluster, ht.hostOf]
    exact (ht.kept site (hsame ▸ hsite)).mpr (hp site (hsame ▸ hsite))
  | edit => exact hp
  | relocate _ hE' => exact hE _ hE'

theorem Settled.life (h : Settled d s) (hl : Life E s s') : Settled d s' := by
  induction hl with
  | refl => exact h
  | tail _ hs ih => exact ih.step hs

theorem Settled.placed_life (h : Settled d s) (hp : s.Placed d) (hl : Life (·.Placed d) s s') :
    s'.Placed d := by
  induction hl with
  | refl => exact hp
  | tail hl hs ih => exact (h.life hl).placed_step ih (fun _ => id) hs

/-- **A reconcile that removes the finalizer** leaves the machine gone exactly
when it was placed. -/
theorem Settled.removal (h : Settled d s) {tr : List (Event ManagerSig)} {outcome : Outcome}
    (he : Prog.Exec managerSem manage s tr s' outcome) (hr : Removes s s')
    (hquiet : ∀ ev ∈ tr, failedIsActiveIn ev = false) : s'.world.Gone d ↔ s.Placed d := by
  obtain ⟨q, ht, hremoval⟩ := manage_tracks True h.tracks he fun _ => hquiet
  have hdel : q.deleted = true := by
    by_contra hdel
    exact hr.2 (hremoval.guarded (Bool.eq_false_iff.mpr hdel) hr.1)
  obtain ⟨site, hsite, hgone⟩ := hremoval.deleted trivial hdel
  rw [hgone, ht.kept site hsite]
  constructor
  · intro hconfined site' hsite'
    cases hsite.symm.trans hsite'
    exact hconfined
  · intro hp
    exact hp site hsite

end Life

/-- **Where cleaning up reaches.** A machine begins with nothing of it on any
host. Whatever happens to it, a reconcile that removes the finalizer, in which
`IsActive` does not fail, leaves nothing of it on any host exactly when before
it nothing of the machine is outside of the site that the spec names. So it is
in every life in which every edit of the spec keeps the machine placed. This is
so for either form of errors; with errors by value, no such reconcile comes
about (`removal_gone`). -/
theorem removal_gone_iff {s₀ : Management} {m₀ : LibvirtMachine} (hm₀ : s₀.api.machine = some m₀)
    (hgone : s₀.world.Gone (domainName m₀)) {s s' : Management} {tr : List (Event ManagerSig)}
    {outcome : Outcome} (he : Prog.Exec managerSem manage s tr s' outcome) (hr : Removes s s')
    (hquiet : ∀ ev ∈ tr, failedIsActiveIn ev = false) :
    (Life (fun _ => True) s₀ s → (s'.world.Gone (domainName m₀) ↔ s.Placed (domainName m₀)))
    ∧ (Life (·.Placed (domainName m₀)) s₀ s → s'.world.Gone (domainName m₀)) := by
  have hsettled := Settled.of_gone hm₀ hgone
  constructor
  · intro hl
    exact (hsettled.life hl).removal he hr hquiet
  · intro hl
    have hplaced : s.Placed (domainName m₀) :=
      hsettled.placed_life (fun site _ => hgone.confined site) hl
    exact ((hsettled.life hl).removal he hr hquiet).mpr hplaced

/-! ## Errors by value -/

/-- What holds all along with errors by value: the hosts are as they were, and
the object is the machine's. The spec of the cluster does not come into it,
since the machine is nowhere. -/
structure Unmade (d : String) (w : World) (s : Management) : Prop where
  world : s.world = w
  stored : ∀ m, s.api.machine = some m → domainName m = d

section Unmade

variable {d : String} {w : World} {E : Management → Prop} {s s' : Management}

/-- A machine of which nothing is anywhere is out of sight at every site. -/
theorem World.Gone.unseen (h : w.Gone d) (hform : ∀ host, (w.hosts host).errors = .value)
    (uri : String) : w.Unseen d uri := by
  intro host _
  exact ⟨hform host, by simpa [Host.Has] using h host .domain⟩

/-- A reconcile leaves the hosts and the finalizer as they are: wherever the
spec leads, the domain is not there and that is an error. -/
theorem Unmade.reconcile (h : Unmade d w s) (hunseen : ∀ uri, w.Unseen d uri)
    {tr : List (Event ManagerSig)} {outcome : Outcome}
    (he : Prog.Exec managerSem manage s tr s' outcome) :
    Unmade d w s' ∧ (s.api.Guarded → s'.api.Guarded) := by
  obtain ⟨q, hq⟩ := (Standstill.begin h.stored fun c _ => h.world ▸ hunseen c.spec.uri).manage he
  exact ⟨⟨hq.world.trans h.world, hq.stored⟩, hq.guarded⟩

theorem Unmade.step (h : Unmade d w s) (hunseen : ∀ uri, w.Unseen d uri)
    (hs : LifeStep E s s') : Unmade d w s' := by
  cases hs with
  | reconcile he => exact (h.reconcile hunseen he).1
  | edit hm hname hnmspace =>
    refine ⟨h.world, fun m hm' => ?_⟩
    obtain rfl := LibvirtMachine.eq_of_stores hm'
    exact (domainName_congr hname hnmspace).trans (h.stored _ hm)
  | relocate => exact ⟨h.world, h.stored⟩

theorem Unmade.life (h : Unmade d w s) (hunseen : ∀ uri, w.Unseen d uri) (hl : Life E s s') :
    Unmade d w s' := by
  induction hl with
  | refl => exact h
  | tail _ hs ih => exact ih.step hunseen hs

end Unmade

/-- **Nothing is left where the finalizer goes.** The binding returns errors by
value, and a machine begins with nothing of it on any host. However its object
and the spec of its cluster are edited, a reconcile leaves nothing of it on any
host, so that whenever one removes the finalizer the machine is gone. It is so
because nothing is ever made: that there is no domain is not answered, but is
an error, and so is deleting what is not there. The finalizer stays where it
is. -/
theorem removal_gone {s₀ : Management} {m₀ : LibvirtMachine} (hm₀ : s₀.api.machine = some m₀)
    (hform : ∀ host, (s₀.world.hosts host).errors = .value)
    (hgone : s₀.world.Gone (domainName m₀)) {s s' : Management} {tr : List (Event ManagerSig)}
    {outcome : Outcome} (hl : Life (fun _ => True) s₀ s)
    (he : Prog.Exec managerSem manage s tr s' outcome) :
    s'.world.Gone (domainName m₀) ∧ ¬ Removes s s' := by
  have hunseen := hgone.unseen hform
  have hstart : Unmade (domainName m₀) s₀.world s₀ := by
    refine ⟨rfl, fun m hm => ?_⟩
    cases hm₀.symm.trans hm
    rfl
  obtain ⟨hafter, hguarded⟩ := (hstart.life hunseen hl).reconcile hunseen he
  exact ⟨hafter.world ▸ hgone, fun hr => hr.2 (hguarded hr.1)⟩

/-! ### Lives -/

/-- Two hosts. -/
def twoHosts (form : ErrorForm) : World where
  hostOf
    | "qemu+tcp://host-a/system" => some 0
    | "qemu+tcp://host-b/system" => some 1
    | _ => none
  hosts _ := { freshHost with errors := form }

/-- The cluster at a URI. -/
def clusterAt (uri : String) : LibvirtCluster :=
  { sampleCluster with spec := { sampleCluster.spec with uri := uri } }

/-- A new machine of the cluster at a URI. -/
def newAt (form : ErrorForm) (uri : String) : Management :=
  ⟨⟨some sampleMachine, some (clusterAt uri)⟩, twoHosts form⟩

/-- The cluster is edited to be at a URI. -/
def Management.moveTo (s : Management) (uri : String) : Management :=
  { s with api := { s.api with libvirtCluster := some (clusterAt uri) } }

/-- The finalizer is added, and the machine is created if it can be. -/
def untilMade (s : Management) : Option Management := (reconcileOn [] s).bind (reconcileOn [])

/-- The object is asked to be deleted, and reconciled. -/
def deleteAt (s : Management) :
    Option (Management × List (Event ManagerSig) × Management × Outcome) :=
  s.api.machine.bind fun m =>
    let deleting := { m with deletionTimestamp := true }
    let s₁ := { s with api := { s.api with machine := deleting.stores } }
    (Prog.runWith managerStep calm manage s₁ []).map fun r => (s₁, r)

theorem life_untilMade {E : Management → Prop} {s s' : Management} (h : untilMade s = some s') :
    Life E s s' := by
  obtain ⟨s₁, h₁, h₂⟩ := Option.bind_eq_some_iff.mp h
  obtain ⟨_, _, he₁⟩ := exec_of_reconcileOn h₁
  obtain ⟨_, _, he₂⟩ := exec_of_reconcileOn h₂
  exact .tail (.single (.reconcile he₁)) (.reconcile he₂)

theorem life_deleteAt {E : Management → Prop} {s s₁ s' : Management}
    {tr : List (Event ManagerSig)} {outcome : Outcome}
    (h : deleteAt s = some (s₁, tr, s', outcome)) :
    Life E s s₁ ∧ Prog.Exec managerSem manage s₁ tr s' outcome := by
  obtain ⟨m, hm, h⟩ := Option.bind_eq_some_iff.mp h
  obtain ⟨r, hr, heq⟩ := Option.map_eq_some_iff.mp h
  cases heq
  exact ⟨.single (.edit hm rfl rfl), Prog.exec_of_runWith hr⟩

/-- Whether the object is there with the finalizer. -/
def Management.guarded (s : Management) : Bool :=
  s.api.machine.any fun m => libvirtMachineFinalizer ∈ m.finalizers

theorem Management.guarded_iff (s : Management) : s.guarded = true ↔ s.api.Guarded := by
  cases h : s.api.machine <;> simp [Management.guarded, ApiState.Guarded, h]

theorem removes_of_guarded {s s' : Management} (h : s.guarded = true) (h' : s'.guarded = false) :
    Removes s s' := by
  refine ⟨s.guarded_iff.mp h, fun hg => ?_⟩
  rw [s'.guarded_iff.mpr hg] at h'
  cases h'

theorem twoHosts_gone (form : ErrorForm) : (twoHosts form).Gone (domainName sampleMachine) := by
  have hroot : domainName sampleMachine ++ ".qcow2" ≠ "ubuntu.qcow2" := by decide +kernel
  have hiso : "cloudinit-" ++ domainName sampleMachine ++ ".iso" ≠ "ubuntu.qcow2" := by
    decide +kernel
  have hvolume (pool name : String) (hname : name ≠ "ubuntu.qcow2") :
      freshHost.storage.volume pool name = none := by
    simp only [Storage.volume, freshHost]
    split <;> simp
  intro host x
  show ¬ ({ freshHost with errors := form } : Host).Has _ x
  cases x with
  | domain => simp [Host.Has, freshHost]
  | volume pool => simp [Host.Has, hvolume, hroot, hiso]
  | reservation net =>
    rintro ⟨network, hn, e, he, -⟩
    simp only [freshHost] at hn
    split at hn <;> cases hn
    cases he

/-- What of the machine is on a host: whether there is a domain, a disk and a
cloud-init image, and how many entries. -/
def Management.remains (s : Management) (host : ℕ) : Bool × Bool × Bool × ℕ :=
  let h := s.world.hosts host
  let d := domainName sampleMachine
  ((h.domains.lookup d).isSome, (h.storage.volume "vms" (d ++ ".qcow2")).isSome,
    (h.storage.volume "vms" ("cloudinit-" ++ d ++ ".iso")).isSome,
    ((h.networks "default").map fun n => (n.hosts.filter fun e =>
      equalFold e.mac (deriveDomainMAC d)).length).getD 0)

theorem Management.has_domain {s : Management} {host : ℕ} (h : (s.remains host).1 = true) :
    (s.world.hosts host).Has (domainName sampleMachine) .domain := h

/-- The cluster is moved from the first host to the second one, and the machine
is deleted there. -/
def movedAndDeleted (form : ErrorForm) :
    Option (Management × List (Event ManagerSig) × Management × Outcome) :=
  ((untilMade (newAt form "qemu+tcp://host-a/system")).map
    (·.moveTo "qemu+tcp://host-b/system")).bind deleteAt

theorem life_movedAndDeleted {form : ErrorForm} {s s' : Management}
    {tr : List (Event ManagerSig)} {outcome : Outcome}
    (h : movedAndDeleted form = some (s, tr, s', outcome)) :
    Life (fun _ => True) (newAt form "qemu+tcp://host-a/system") s
      ∧ Prog.Exec managerSem manage s tr s' outcome := by
  obtain ⟨s₂, hmove, hdelete⟩ := Option.bind_eq_some_iff.mp h
  obtain ⟨s₁, hmade, rfl⟩ := Option.map_eq_some_iff.mp hmove
  obtain ⟨hlife, he⟩ := life_deleteAt (E := fun _ => True) hdelete
  have hmoved : LifeStep (fun _ => True) s₁ (s₁.moveTo "qemu+tcp://host-b/system") := by
    refine .relocate ?_ trivial
    rintro _ ⟨⟩
    decide
  exact ⟨((life_untilMade hmade).tail hmoved).trans hlife, he⟩

theorem removal_gone_moved : ∃ s tr s' outcome,
    Life (fun _ => True) (newAt .value "qemu+tcp://host-a/system") s
    ∧ s.guarded = true ∧ s.api.machine.map LibvirtMachine.deletionTimestamp = some true
    ∧ Prog.Exec managerSem manage s tr s' outcome
    ∧ s'.world.Gone (domainName sampleMachine) ∧ ¬ Removes s s' := by
  have hrun : (movedAndDeleted .value).map (fun x =>
      (x.1.guarded, x.1.api.machine.map LibvirtMachine.deletionTimestamp))
      = some (true, some true) := by decide +kernel
  obtain ⟨⟨s, tr, s', outcome⟩, hx, hout⟩ := Option.map_eq_some_iff.mp hrun
  obtain ⟨hguarded, hdeleting⟩ := Prod.mk.inj hout
  obtain ⟨hlife, he⟩ := life_movedAndDeleted hx
  exact ⟨s, tr, s', outcome, hlife, hguarded, hdeleting, he,
    removal_gone rfl (fun _ => rfl) (twoHosts_gone .value) hlife he⟩

/-- **A machine is left behind**, once errors are recognised. It is made on one
host, the cluster is moved to the other one, and the machine is deleted: the
finalizer goes, and all of the machine stays where it is. -/
theorem removal_leaves_machine : ∃ s tr s' outcome,
    Life (fun _ => True) (newAt .pointer "qemu+tcp://host-a/system") s
    ∧ Prog.Exec managerSem manage s tr s' outcome ∧ Removes s s'
    ∧ (∀ ev ∈ tr, failedIsActiveIn ev = false) ∧ s'.remains 0 = (true, true, true, 1)
    ∧ ¬ s'.world.Gone (domainName sampleMachine) := by
  have hrun : (movedAndDeleted .pointer).map (fun x =>
      (x.1.guarded, x.2.2.1.guarded, x.2.1.all (!failedIsActiveIn ·),
        x.2.2.1.remains 0 == (true, true, true, 1)))
      = some (true, false, true, true) := by decide +kernel
  obtain ⟨⟨s, tr, s', outcome⟩, hx, hout⟩ := Option.map_eq_some_iff.mp hrun
  obtain ⟨hguarded, hfree, hquiet, hremains⟩ : s.guarded = true ∧ s'.guarded = false
      ∧ tr.all (!failedIsActiveIn ·) = true ∧ s'.remains 0 = (true, true, true, 1) := by
    simpa using hout
  obtain ⟨hlife, he⟩ := life_movedAndDeleted hx
  refine ⟨s, tr, s', outcome, hlife, he, removes_of_guarded hguarded hfree, by simpa using hquiet,
    hremains, fun hgone => ?_⟩
  exact hgone 0 .domain (Management.has_domain (congrArg Prod.fst hremains))

end LibvirtProvider

import LibvirtProvider.Interleaving
import LibvirtProvider.Manager
import LibvirtProvider.Status

/-!
# Bootstrap data is used once

`CreateMachine` boots a machine with its bootstrap data, and a machine whose
domain is gone is not to be booted with them again. What a later reconcile goes
by is the provider ID, which the patch at the end of the reconcile stores; the
patch may fail, or not be reached.

Reconciles run one after the other, each cut off anywhere or not at all, and
before every call of libvirt and of the API server the hosts may change, the
domain may be stopped or deleted, and the object may be edited (`Meanwhile`).

With a binding that returns its errors by value, `CreateMachine` is not called
at all, and so not again (`bootstrap_used_at_most_once`). With errors that are
recognised, what holds is that `CreateMachine` is not called again after it has
succeeded in the runs where the domain is not deleted between that and the time
the provider ID is stored (`bootstrap_used_once`), and it is called again in
others (`bootstrap_used_twice`).
-/

namespace LibvirtProvider

open Interaction

/-! ## Operations that are disturbed -/

/-- Which of the calls take something away. -/
def ProviderOp.removes : ProviderOp → Bool
  | .connect _ => false
  | .libvirt _ o => o.removes

section Disturbed

variable {w w' : World} {host : ℕ}

theorem providerSem_present {x : ProviderSig.Op} {r : ProviderSig.Ans x} {name : String}
    (h : providerSem w x r w') (hx : ProviderOp.removes x = false)
    (hp : (w.hosts host).present name = true) : (w'.hosts host).present name = true := by
  match x with
  | .connect cfg =>
    rw [(providerSem_connect h).1]
    exact hp
  | .libvirt conn o =>
    obtain ⟨t, ht, rfl⟩ := providerSem_libvirt.mp h
    by_cases hhost : host = conn.host
    · subst hhost
      rw [World.hosts_setHost_self]
      exact libvirtSem_present ht hx hp
    · rw [World.hosts_setHost_of_ne _ hhost]
      exact hp

theorem provide_removes {o : MachineOp} (hdelete : ∀ cfg, o ≠ .deleteMachine cfg) :
    (provide o).Calls fun x => ProviderOp.removes x = false := by
  have hcalls := provideOn_removes hdelete
  cases o <;> exact connected_calls rfl fun _ => hcalls

/-- A run over a connection, where anything may happen on the hosts. -/
theorem connected_disturbed {α : Type} {p : LibvirtM α} {cfg : MachineConfig}
    {tr : List (Event ProviderSig)} {r : Except GoError α}
    (h : Prog.Exec (Prog.disturbed (fun w w' => w'.hostOf = w.hostOf) providerSem)
      (connected cfg p).run w tr w' r) :
    (∃ e, r = .error e)
    ∨ ∃ host tr' t, w.hostOf cfg.uri = some host
      ∧ Prog.Exec (Prog.disturbed (fun _ _ => True) libvirtSem) p.run t tr' (w'.hosts host) r := by
  rcases Prog.exec_bind_except.mp h with ⟨e, -, rfl⟩ | ⟨conn, w₁, _, tr₁, rfl, hx, h₁⟩
  · exact Or.inl ⟨e, rfl⟩
  obtain ⟨⟨w₀, henv, hs⟩, -⟩ := Prog.exec_perform.mp (Prog.exec_adapt_ok.mp hx)
  have hhostOf : w₀.hostOf = w.hostOf := by
    clear hs
    induction henv with
    | refl => rfl
    | tail _ hstep ih => exact hstep.trans ih
  obtain ⟨rfl, ⟨e, hr⟩ | ⟨host, hhost, hr⟩⟩ := providerSem_connect hs
  · cases hr
  cases hr
  rw [hhostOf] at hhost
  obtain ⟨tr', hx⟩ := Prog.exec_interp.mp ⟨_, h₁⟩
  refine Or.inr ⟨host, tr', w₁.hosts host, hhost, hx.map (g := fun w => w.hosts host) ?_⟩
  rintro w o r w' ⟨_, hcall⟩
  obtain ⟨⟨w₂, -, hs⟩, -⟩ := Prog.exec_perform.mp hcall
  obtain ⟨t, ht, rfl⟩ := providerSem_libvirt.mp hs
  refine ⟨w₂.hosts host, .single trivial, ?_⟩
  rw [World.hosts_setHost_self]
  exact ht

/-- **An operation that is disturbed** fails, or runs on the host its URI
leads to. Which host that is does not change, but everything on it may, before
each call. -/
theorem provide_disturbed {env : Management → Management → Prop} {s s' : Management} {o : MachineOp}
    {r : o.Result} {tr : List (Event ManagerSig)}
    (henv : ∀ s s', env s s' → s'.world.hostOf = s.world.hostOf)
    (he : Prog.Exec (Prog.disturbed env managerSem)
      ((provide o).interp fun x => Prog.perform (σ := ManagerSig) (.provider x)) s tr s' r) :
    o.Fails r ∨ ∃ host tr' t, s.world.hostOf o.cfg.uri = some host
      ∧ Prog.Exec (Prog.disturbed (fun _ _ => True) libvirtSem) (provideOn o) t tr'
        (s'.world.hosts host) r := by
  obtain ⟨tr', h⟩ := Prog.exec_interp.mp ⟨tr, he⟩
  have hrun : Prog.Exec (Prog.disturbed (fun w w' => w'.hostOf = w.hostOf) providerSem) (provide o)
      s.world tr' s'.world r := by
    refine h.map (g := Management.world) ?_
    rintro t x r t' ⟨_, hcall⟩
    obtain ⟨⟨t₁, ht, hs⟩, -⟩ := Prog.exec_perform.mp hcall
    obtain ⟨w, hw, rfl⟩ := managerSem_provider.mp hs
    exact ⟨t₁.world, ht.lift Management.world henv, hw⟩
  cases o <;> exact connected_disturbed hrun

/-- **The answers are right**, at the end of an operation that is disturbed.
They need not be right any longer when the next call is made. -/
theorem provide_shows {env : Management → Management → Prop} {s s' : Management} {o : MachineOp}
    {r : o.Result} {tr : List (Event ManagerSig)}
    (henv : ∀ s s', env s s' → s'.world.hostOf = s.world.hostOf)
    (hhost : s.world.hostOf o.cfg.uri = some host)
    (he : Prog.Exec (Prog.disturbed env managerSem)
      ((provide o).interp fun x => Prog.perform (σ := ManagerSig) (.provider x)) s tr s' r) :
    o.Shows r ((s'.world.hosts host).present o.cfg.domainName) := by
  rcases provide_disturbed henv he with hfails | ⟨host', _, _, hhost', hx⟩
  · exact hfails.shows _
  · cases hhost.symm.trans hhost'
    exact provideOn_shows hx

end Disturbed

/-! ## What happens meanwhile -/

/-- Whether `CreateMachine` has succeeded, and whether it was called again
after that. It is the property in question, as a record. -/
structure Usage where
  used : Bool := false
  again : Bool := false
  deriving DecidableEq

/-- The usage after a call. -/
def Usage.write (u : Usage) : Event ControllerSig → Usage
  | ⟨.provider (.createMachine _), r⟩ => ⟨u.used || Except.isOk r, u.again || u.used⟩
  | _ => u

/-- **What happens meanwhile**: the hosts change, as far as `guard` lets them,
and the object is edited. Neither does an edit concern the provider ID, nor
does it take back that the object is being deleted. -/
inductive Meanwhile (guard : Bool → Management → (ℕ → Host) → Prop) (used : Bool)
    (s : Management) : Management → Prop where
  | hosts {hosts : ℕ → Host} (hguard : guard used s hosts) :
      Meanwhile guard used s { s with world := { s.world with hosts := hosts } }
  | edit {m m' : LibvirtMachine} (hm : s.api.machine = some m) (hname : m'.name = m.name)
      (hnmspace : m'.nmspace = m.nmspace) (hid : m'.spec.providerID = m.spec.providerID)
      (hdel : m.deletionTimestamp = true → m'.deletionTimestamp = true) :
      Meanwhile guard used s { s with api := { s.api with machine := m'.stores } }

/-- **The domain is spared** from when `CreateMachine` has succeeded until the
provider ID is stored: it is not deleted on its host. Before and after that
span it may be. -/
def Spares (name : String) (host : ℕ) (used : Bool) (s : Management) (hosts : ℕ → Host) : Prop :=
  used = true → (∃ m, s.api.machine = some m ∧ m.spec.providerID.isSome = true)
    ∨ ((s.world.hosts host).present name = true → (hosts host).present name = true)

/-- **The calls of the controller**, with what happens meanwhile before each
call of libvirt and of the API server, also in the middle of an operation. -/
def usageSem (guard : Bool → Management → (ℕ → Host) → Prop) :
    Sem ControllerSig (Management × Usage) :=
  fun s o r s' => Prog.semVia implement
    (Prog.disturbed (Meanwhile guard s.2.used) managerSem) s.1 o r s'.1 ∧ s'.2 = s.2.write ⟨o, r⟩

/-- The controller with the hosts. -/
abbrev Workload := Pool Unit (Management × Usage) ControllerSig Outcome

/-- Before the first reconcile. -/
def Workload.initial (s : Management) : Workload where
  state := (s, {})
  prog _ := .done {}

/-- **The runs**: reconciles one after the other, each cut off anywhere or not
at all. -/
def Workload.Reach (guard : Bool → Management → (ℕ → Host) → Prop) : Workload → Workload → Prop :=
  Pool.Reach (usageSem guard) (fun _ p => p = reconcile)
    (fun s s' => Meanwhile guard s.2.used s.1 s'.1 ∧ s'.2 = s.2) (fun _ _ => True)

/-! ## What a reconcile can rely on -/

/-- **The machine is known to be made**, from an object: it is being deleted,
has its provider ID, or its domain is there. -/
def Management.Recalls (s : Management) (name : String) (host : ℕ) (m : LibvirtMachine) : Prop :=
  m.deletionTimestamp = true ∨ m.spec.providerID.isSome = true
    ∨ (s.world.hosts host).present name = true

/-- **What a reconcile can rely on.** A machine that was made is known to be
made from the stored object; and from the object that was read, until the
domain is looked for. From then on it is the answer that counts: `fresh` says
that where creating is still open nothing has been created. -/
structure Relies (name : String) (c : LibvirtCluster) (host : ℕ) (q : Course)
    (s : Management × Usage) : Prop where
  serves : q.Serves c (fun m => domainName m = name) s.1.api
  hostOf : s.1.world.hostOf c.spec.uri = some host
  deleting : ∀ x m, q.machine = some x → s.1.api.machine = some m →
    x.deletionTimestamp = true → m.deletionTimestamp = true
  unset : ∀ x m, q.machine = some x → s.1.api.machine = some m → q.state = none →
    x.spec.providerID = none → m.spec.providerID = none
  stored : s.2.used = true → ∀ m, s.1.api.machine = some m → s.1.Recalls name host m
  read : s.2.used = true → ∀ x, q.machine = some x → q.state = none → s.1.Recalls name host x
  fresh : ∀ x, q.machine = some x → x.spec.providerID = none → x.deletionTimestamp = false →
    q.state = some .notFound → q.asked = false → s.2.used = false
  once : s.2.again = false

section Relies

variable {name : String} {c : LibvirtCluster} {host : ℕ} {q : Course} {s s' : Management}
  {u : Usage}

/-- At the start of a reconcile. -/
theorem Relies.forget (h : Relies name c host q (s, u)) : Relies name c host {} (s, u) where
  serves := h.serves.forget
  hostOf := h.hostOf
  deleting _ _ hx := nomatch hx
  unset _ _ hx := nomatch hx
  stored := h.stored
  read _ _ hx := nomatch hx
  fresh _ hx := nomatch hx
  once := h.once

/-- **The hosts change**, and the domain stays or is known to be made without
it. -/
theorem Relies.hosts (h : Relies name c host q (s, u)) {w : World}
    (hhostOf : w.hostOf = s.world.hostOf)
    (hstored : u.used = true → (s.world.hosts host).present name = true →
      ∀ m, s.api.machine = some m → Management.Recalls { s with world := w } name host m)
    (hread : u.used = true → (s.world.hosts host).present name = true →
      ∀ x, q.machine = some x → q.state = none →
        Management.Recalls { s with world := w } name host x) :
    Relies name c host q ({ s with world := w }, u) where
  serves := h.serves
  hostOf := (congrFun hhostOf _).trans h.hostOf
  deleting := h.deleting
  unset := h.unset
  stored hu m hm := by
    rcases h.stored hu m hm with hdel | hid | hp
    · exact Or.inl hdel
    · exact Or.inr (Or.inl hid)
    · exact hstored hu hp m hm
  read hu x hx hstate := by
    rcases h.read hu x hx hstate with hdel | hid | hp
    · exact Or.inl hdel
    · exact Or.inr (Or.inl hid)
    · exact hread hu hp x hx hstate
  fresh := h.fresh
  once := h.once

/-- **What happens meanwhile keeps it**, if the domain is spared. -/
theorem Relies.meanwhile (h : Relies name c host q (s, u))
    (hs : Meanwhile (Spares name host) u.used s s') : Relies name c host q (s', u) := by
  cases hs with
  | hosts hguard =>
    refine h.hosts rfl (fun hu hp m hm => ?_) fun hu hp x hx hstate => ?_
    · rcases hguard hu with ⟨m', hm', hid⟩ | hkept
      · cases hm.symm.trans hm'
        exact Or.inr (Or.inl hid)
      · exact Or.inr (Or.inr (hkept hp))
    · rcases hguard hu with ⟨m', hm', hid⟩ | hkept
      · refine Or.inr (Or.inl ?_)
        by_contra hnone
        rw [h.unset x m' hx hm' hstate (by simpa using hnone)] at hid
        cases hid
      · exact Or.inr (Or.inr (hkept hp))
  | edit hm hname hnmspace hid hdel =>
    rename_i m m'
    refine ⟨h.serves.edit ((domainName_congr hname hnmspace).trans (h.serves.stored m hm)),
      h.hostOf, fun x y hx hy hxdel => ?_, fun x y hx hy hstate hnone => ?_, fun hu y hy => ?_,
      h.read, h.fresh, h.once⟩
    · obtain rfl := LibvirtMachine.eq_of_stores hy
      exact hdel (h.deleting x m hx hm hxdel)
    · obtain rfl := LibvirtMachine.eq_of_stores hy
      rw [hid]
      exact h.unset x m hx hm hstate hnone
    · obtain rfl := LibvirtMachine.eq_of_stores hy
      unfold Management.Recalls
      rw [hid]
      exact (h.stored hu m hm).imp_left hdel

theorem Relies.meanwhiles (h : Relies name c host q (s, u))
    (hs : Relation.ReflTransGen (Meanwhile (Spares name host) u.used) s s') :
    Relies name c host q (s', u) := by
  induction hs with
  | refl => exact h
  | tail _ hstep ih => exact ih.meanwhile hstep

/-- **A request to the API server.** -/
theorem Relies.request (h : Relies name c host q (s, u)) {o : ApiOp} {r : o.Result} {a : ApiState}
    (ho : q.Allows (.api o)) (ha : apiSem s.api o r a) :
    Relies name c host (q.next (.api o) r) ({ s with api := a }, u) := by
  have hserves := h.serves.request (fun o f m hedit hm =>
    (domainName_congr (ApiOp.edit_name hedit m).1 (ApiOp.edit_name hedit m).2).trans hm) ha
  rcases apiSem_cases ha with rfl | ⟨f, m, hedit, hm, -, rfl⟩
  · cases o with
    | getLibvirtMachine =>
      -- what was read is what is stored
      have hfound (x m : LibvirtMachine)
          (hx : (q.next (.api .getLibvirtMachine) r).machine = some x)
          (hm : s.api.machine = some m) : x = m := by
        match r with
        | .error err => cases hx
        | .ok x' =>
          cases hx
          exact Option.some.inj (((apiSem_getLibvirtMachine ha).2 x rfl).symm.trans hm)
      refine ⟨hserves, h.hostOf, fun x m hx hm hdel => hfound x m hx hm ▸ hdel,
        fun x m hx hm _ hid => hfound x m hx hm ▸ hid, h.stored, fun hu x hx _ => ?_,
        (fun _ _ _ _ h => nomatch h), h.once⟩
      match r with
      | .error err => cases hx
      | .ok x' =>
        cases hx
        exact h.stored hu x ((apiSem_getLibvirtMachine ha).2 x rfl)
    | _ => exact ⟨hserves, h.hostOf, h.deleting, h.unset, h.stored, h.read, h.fresh, h.once⟩
  · rw [q.next_of_edit hedit] at hserves ⊢
    obtain ⟨before, after, err, hbefore, hexit, hf⟩ := ho.edit hedit
    have hid : (f m).spec.providerID = m.spec.providerID
        ∨ (f m).spec.providerID.isSome = true ∧ q.Provides := by
      rcases hf with rfl | rfl | rfl
      · by_cases heq : after.spec.providerID = before.spec.providerID
        · exact Or.inl (if_pos heq)
        · refine Or.inr ⟨?_, hexit.provides heq⟩
          rw [show (before.merge after m).spec.providerID = after.spec.providerID from if_neg heq]
          rcases hexit.change.providerID with hsame | ⟨-, hset, -⟩
          · exact absurd hsame heq
          · rw [hset]
            rfl
      · exact Or.inl rfl
      · exact Or.inl rfl
    refine ⟨hserves, h.hostOf, fun x y hx hy hdel => ?_, fun x y hx hy hstate hnone => ?_,
      fun hu y hy => ?_, h.read, h.fresh, h.once⟩
    · obtain rfl := LibvirtMachine.eq_of_stores hy
      rw [ApiOp.edit_deletionTimestamp hedit]
      exact h.deleting x m hx hm hdel
    · obtain rfl := LibvirtMachine.eq_of_stores hy
      rcases hid with hid | ⟨-, hup⟩
      · rw [hid]
        exact h.unset x m hx hm hstate hnone
      · simp [Course.Provides, hstate] at hup
    · obtain rfl := LibvirtMachine.eq_of_stores hy
      unfold Management.Recalls
      rw [ApiOp.edit_deletionTimestamp hedit]
      rcases hid with hid | ⟨hid, -⟩
      · rw [hid]
        exact h.stored hu m hm
      · exact Or.inr (Or.inl hid)

/-- **The calls of an operation.** A deletion is made for an object that is
being deleted only. -/
theorem Relies.calls (h : Relies name c host q (s, u)) {o : MachineOp} {r : o.Result}
    (ho : q.Allows (.provider o)) {tr : List (Event ManagerSig)}
    (he : Prog.Exec (Prog.disturbed (Meanwhile (Spares name host) u.used) managerSem)
      ((provide o).interp fun x => Prog.perform (σ := ManagerSig) (.provider x)) s tr s' r) :
    Relies name c host q (s', u) := by
  obtain ⟨x, cluster, c', hx, -, -, -, -, hgrants⟩ := ho
  have hcalls : (provide o).Calls fun y =>
      x.deletionTimestamp = false → ProviderOp.removes y = false := by
    by_cases hdelete : ∀ cfg, o ≠ .deleteMachine cfg
    · exact (provide_removes hdelete).mono fun _ hy _ => hy
    · push Not at hdelete
      obtain ⟨cfg, rfl⟩ := hdelete
      exact Prog.calls_of_forall (fun _ hx => nomatch hx.symm.trans hgrants.1) _
  have hcalls' : ((provide o).interp fun x => Prog.perform (σ := ManagerSig) (.provider x)).Calls
      fun z => ∃ y, z = ManagerOp.provider y
        ∧ (x.deletionTimestamp = false → ProviderOp.removes y = false) :=
    hcalls.interp fun y hy => ⟨⟨y, rfl, hy⟩, fun _ => trivial⟩
  refine hcalls'.invariant (I := fun t => Relies name c host q (t, u)) ?_ h he
  rintro t _ r t' ht ⟨y, rfl, hy⟩ ⟨t₁, henv, hs⟩
  replace ht := ht.meanwhiles henv
  obtain ⟨w, hw, rfl⟩ := managerSem_provider.mp hs
  refine ht.hosts (providerSem_hostOf hw) (fun _ hp m hm => ?_) fun _ hp x' hx' _ => ?_
  · cases hdel : x.deletionTimestamp with
    | true => exact Or.inl (ht.deleting x m hx hm hdel)
    | false => exact Or.inr (Or.inr (providerSem_present hw (hy hdel) hp))
  · cases hx.symm.trans hx'
    cases hdel : x.deletionTimestamp with
    | true => exact Or.inl hdel
    | false => exact Or.inr (Or.inr (providerSem_present hw (hy hdel) hp))

/-- **The answer of an operation.** -/
theorem Relies.answer (h : Relies name c host q (s, u)) {o : MachineOp} {r : o.Result}
    (ho : q.Allows (.provider o)) (hshows : o.Shows r ((s.world.hosts host).present name)) :
    Relies name c host (q.next (.provider o) r) (s, u.write ⟨.provider o, r⟩) := by
  obtain ⟨x, cluster, c', hx, -, -, -, -, hgrants⟩ := ho
  have hserves := h.serves.operate o (r := r)
  cases o with
  | getMachineState cfg =>
    obtain ⟨-, hstate⟩ := hgrants
    refine ⟨hserves, h.hostOf, h.deleting, fun x m hx hm _ => h.unset x m hx hm hstate, h.stored,
      fun hu x hx _ => h.read hu x hx hstate, fun x hx hid hdel hnot _ => ?_, h.once⟩
    -- the domain is not there, and nothing says that the machine was made
    by_contra hu
    match r with
    | .error err => cases hnot
    | .ok state =>
      cases hnot
      rcases h.read (Bool.eq_true_of_not_eq_false hu) x hx hstate with hdel' | hid' | hp
      · cases hdel.symm.trans hdel'
      · rw [hid] at hid'
        cases hid'
      · exact (hshows _ rfl).mp hp rfl
  | createMachine cfg =>
    obtain ⟨hopen, hid, hstate, -, hasked⟩ := hgrants
    have hfresh := h.fresh x hx hid hopen.deletion hstate hasked
    refine ⟨hserves, h.hostOf, h.deleting, fun x m hx hm hnone => ?_, fun hu m hm => ?_,
      fun _ _ _ hnone => ?_, (fun _ _ _ _ _ h => nomatch h), ?_⟩
    · cases hstate.symm.trans hnone
    · -- the call has succeeded just now
      match r with
      | .ok () => exact Or.inr (Or.inr (hshows rfl))
      | .error err => exact nomatch hfresh.symm.trans ((Bool.or_false _).symm.trans hu)
    · cases hstate.symm.trans hnone
    · exact Bool.or_eq_false_iff.mpr ⟨h.once, hfresh⟩
  | startMachine cfg | deleteMachine cfg =>
    exact ⟨hserves, h.hostOf, h.deleting, h.unset, h.stored, h.read,
      (fun _ _ _ _ _ h => nomatch h), h.once⟩
  | getMachineAddress cfg =>
    exact ⟨hserves, h.hostOf, h.deleting, h.unset, h.stored, h.read, h.fresh, h.once⟩

/-- **Every call of a reconcile** keeps it, with what happens meanwhile before
it. -/
theorem Relies.step {s s' : Management × Usage} (h : Relies name c host q s)
    {o : ControllerSig.Op} {r : ControllerSig.Ans o} (ho : q.Allows o)
    (hs : usageSem (Spares name host) s o r s') : Relies name c host (q.next o r) s' := by
  obtain ⟨s, u⟩ := s
  obtain ⟨s', u'⟩ := s'
  obtain ⟨⟨tr, he⟩, hu⟩ := hs
  dsimp only at hu
  subst hu
  match o with
  | .api o =>
    obtain ⟨⟨t, henv, hs⟩, -⟩ := Prog.exec_perform.mp he
    obtain ⟨a, ha, heq⟩ := managerSem_api.mp hs
    dsimp only at heq
    subst heq
    exact (h.meanwhiles henv).request ho ha
  | .provider o =>
    have hcfg : o.cfg.domainName = name ∧ o.cfg.uri = c.spec.uri := by
      obtain ⟨x, cluster, c', hx, -, -, hc, hcfg, -⟩ := ho
      obtain rfl := h.serves.seen c' hc
      exact ⟨(isFor_domainName hcfg).trans (h.serves.read x hx), isFor_uri hcfg⟩
    have hhost : s.world.hostOf o.cfg.uri = some host := hcfg.2 ▸ h.hostOf
    have hshows := provide_shows (fun t t' ht => by cases ht <;> rfl) hhost he
    rw [hcfg.1] at hshows
    exact (h.calls ho he).answer ho hshows

end Relies

/-! ## Runs -/

/-- **Bootstrap data is used once.** In every run where the domain is not
deleted on its host between a `CreateMachine` that succeeded and the time the
provider ID is stored, `CreateMachine` is not called again after it has
succeeded. Any call may fail, a reconcile may be cut off anywhere, and before
any call the hosts may change otherwise and the object may be edited. -/
theorem bootstrap_used_once {s : Management} {m : LibvirtMachine} {c : LibvirtCluster} {host : ℕ}
    {p : Workload} (hm : s.api.machine = some m) (hc : s.api.libvirtCluster = some c)
    (hhost : s.world.hostOf c.spec.uri = some host)
    (h : Workload.Reach (Spares (domainName m) host) (.initial s) p) :
    p.state.2.again = false := by
  have hinit : Relies (domainName m) c host {} (s, {}) := by
    refine ⟨⟨hc, fun x hx => ?_, (fun _ h => nomatch h), fun _ h => nomatch h⟩, hhost,
      (fun _ _ h => nomatch h), (fun _ _ h => nomatch h), (fun h => nomatch h),
      (fun h => nomatch h), (fun _ h => nomatch h), rfl⟩
    cases hm.symm.trans hx
    rfl
  have hstart : Pool.Monitored (fun _ => courseMonitor)
      (fun q t => Relies (domainName m) c host (q ()) t) (Workload.initial s) :=
    ⟨fun _ => {}, hinit, fun _ => trivial⟩
  have hmonitored : Pool.Monitored (fun _ => courseMonitor)
      (fun q t => Relies (domainName m) c host (q ()) t) p := by
    refine Pool.Monitored.reach (fun _ => {}) ?_ ?_ ?_ ?_ hstart h
    · rintro q t ⟨⟩ o r t' hq ho hs -
      rw [Function.update_self]
      exact hq.step ho hs
    · rintro q t ⟨⟩ hq
      rw [Function.update_self]
      exact hq.forget
    · rintro _ _ rfl
      exact reconcile_course
    · rintro q t ⟨t', _⟩ hq ⟨hs, hu⟩
      dsimp only at hu
      subst hu
      exact hq.meanwhile hs
  obtain ⟨q, hq, -⟩ := hmonitored
  exact hq.once

/-! ## Errors by value

With a binding that returns its errors by value, `GetMachineState` does not
answer that there is no domain, and nothing else leads to `CreateMachine`. -/

/-- **The hosts change in any way**, with the same binding. -/
def SameForm (_ : Bool) (s : Management) (hosts : ℕ → Host) : Prop :=
  ∀ i, (hosts i).errors = (s.world.hosts i).errors

/-- What a reconcile goes by: errors come by value, and nothing has been
answered that would call for `CreateMachine`. Nothing is assumed of the hosts
but the form of their errors. -/
structure Uninformed (q : Seen) (s : Management × Usage) : Prop where
  errors : ∀ i, (s.1.world.hosts i).errors = .value
  state : q.state ≠ some .notFound
  unused : s.2 = {}

section Uninformed

variable {used : Bool} {q : Seen} {s s' : Management}

theorem Meanwhile.errors (h : Meanwhile SameForm used s s') (i : ℕ) :
    (s'.world.hosts i).errors = (s.world.hosts i).errors := by
  cases h with
  | hosts hguard => exact hguard i
  | edit => rfl

theorem disturbed_errors {o : ManagerSig.Op} {r : ManagerSig.Ans o}
    (h : Prog.disturbed (Meanwhile SameForm used) managerSem s o r s') (i : ℕ) :
    (s'.world.hosts i).errors = (s.world.hosts i).errors := by
  obtain ⟨t, henv, hs⟩ := h
  refine (managerSem_errors hs i).trans ?_
  clear hs
  induction henv with
  | refl => rfl
  | tail _ hstep ih => exact (hstep.errors i).trans ih

/-- **Every call of a reconcile** keeps it: of the operations only
`GetMachineState` could change it, and it does not answer that there is no
domain. -/
theorem Uninformed.step {s s' : Management × Usage} (h : Uninformed q s) {o : ControllerSig.Op}
    {r : ControllerSig.Ans o} (ho : q.Allows o) (hs : usageSem SameForm s o r s') :
    Uninformed (q.next o r) s' := by
  obtain ⟨⟨tr, he⟩, hu⟩ := hs
  have herrors (i : ℕ) : (s'.1.world.hosts i).errors = .value :=
    (he.keeps (fun t : Management => (t.world.hosts i).errors) fun _ _ _ _ hs =>
      disturbed_errors hs i).trans (h.errors i)
  match o with
  | .api o =>
    have hstate : (q.next (.api o) r).state ≠ some .notFound := by
      cases o with
      | getLibvirtMachine => exact nofun
      | _ => exact h.state
    exact ⟨herrors, hstate, hu.trans h.unused⟩
  | .provider o =>
    cases o with
    | getMachineState cfg =>
      refine ⟨herrors, fun hstate => ?_, hu.trans h.unused⟩
      match r with
      | .error err => cases hstate
      | .ok state =>
        cases hstate
        rcases provide_disturbed (fun t t' ht => by cases ht <;> rfl) he with
          ⟨e, hr⟩ | ⟨host, _, _, -, hx⟩
        · cases hr
        · cases (herrors host).symm.trans (getDomainState_pointer hx)
    | createMachine cfg => exact absurd ho.state_of_create h.state
    | startMachine cfg | deleteMachine cfg | getMachineAddress cfg =>
      exact ⟨herrors, h.state, hu.trans h.unused⟩

end Uninformed

/-- **Bootstrap data is used at most once**, with a binding that returns its
errors by value. Any call may fail, a reconcile may be cut off anywhere, and
before any call of libvirt and of the API server the hosts may change in any
way, domains being stopped and deleted on them, and the object may be edited.
`CreateMachine` is not called again after it has succeeded; and it is never
called at all, since a missing domain is not told from a host that does not
answer. -/
theorem bootstrap_used_at_most_once {s : Management} {p : Workload}
    (hform : ∀ i, (s.world.hosts i).errors = .value)
    (h : Workload.Reach SameForm (.initial s) p) :
    p.state.2.again = false
    ∧ ∀ o k, p.prog () = .call o k → ∀ cfg, o ≠ .provider (.createMachine cfg) := by
  have hstart : Pool.Monitored (fun _ => reconcileMonitor) (fun q t => Uninformed (q ()) t)
      (Workload.initial s) := ⟨fun _ => {}, ⟨hform, nofun, rfl⟩, fun _ => trivial⟩
  have hmonitored : Pool.Monitored (fun _ => reconcileMonitor) (fun q t => Uninformed (q ()) t)
      p := by
    refine Pool.Monitored.reach (fun _ => {}) ?_ ?_ ?_ ?_ hstart h
    · rintro q t ⟨⟩ o r t' hq ho hs -
      rw [Function.update_self]
      exact hq.step ho hs
    · rintro q t ⟨⟩ hq
      rw [Function.update_self]
      exact ⟨hq.errors, nofun, hq.unused⟩
    · rintro _ _ rfl
      exact reconcile_obeys
    · rintro q t t' hq ⟨hs, hu⟩
      exact ⟨fun i => (hs.errors i).trans (hq.errors i), hq.state, hu.trans hq.unused⟩
  obtain ⟨q, hq, hobeys⟩ := hmonitored
  refine ⟨hq.unused ▸ rfl, ?_⟩
  rintro o k hprog cfg rfl
  have hallows := hobeys ()
  rw [hprog] at hallows
  exact hq.state (Seen.Allows.state_of_create hallows.1)

/-! ### Runs -/

/-- A call of the controller on given choices, and all goes well once they are
used up. -/
def usageStep (s : Management × Usage) (o : ControllerSig.Op) (cs : List ManagementChoice) :
    Option (ControllerSig.Ans o × Management × Usage) :=
  (Prog.runWith managerStep calm (implement o) s.1 cs).map fun x =>
    (x.2.2, x.2.1, s.2.write ⟨o, x.2.2⟩)

/-- The state after a reconcile on the given choices, a list for each call. -/
def usageOn (css : List (List ManagementChoice)) (s : Management × Usage) :
    Option (Management × Usage) :=
  (Prog.runWith usageStep [] reconcile s css).map fun x => x.2.1

theorem reach_of_usageOn {G : Bool → Management → (ℕ → Host) → Prop} {p : Workload}
    {css : List (List ManagementChoice)} {s : Management × Usage} {a : Outcome}
    (hidle : p.prog () = .done a) (h : usageOn css p.state = some s) :
    ∃ b, Workload.Reach G p ⟨s, fun _ => .done b⟩ := by
  obtain ⟨⟨tr, s', b⟩, hx, rfl⟩ := Option.map_eq_some_iff.mp h
  have he : Prog.Exec (usageSem G) reconcile p.state tr s' b := by
    refine (Prog.exec_of_runWith hx).map (g := id) ?_
    rintro t o r t' ⟨cs, hcs⟩
    obtain ⟨⟨tr, t₁, r'⟩, hy, heq⟩ := Option.map_eq_some_iff.mp hcs
    cases heq
    exact ⟨⟨tr, (Prog.exec_of_runWith hy).disturb⟩, rfl⟩
  refine ⟨b, ?_⟩
  have hrun : Workload.Reach G p ⟨s', Function.update p.prog () (.done b)⟩ :=
    Pool.reach_of_start hidle rfl he
  rwa [show Function.update p.prog () (.done b) = fun _ => .done b from
    funext fun _ => Function.update_self _ _ _] at hrun

/-- All domains are deleted, on all hosts. -/
def wiped (s : Management × Usage) : Management × Usage :=
  ({ s.1 with world := { s.1.world with
      hosts := fun i => { s.1.world.hosts i with domains := ∅ } } }, s.2)

theorem reach_wiped {guard : Bool → Management → (ℕ → Host) → Prop} {s : Management × Usage}
    {prog : Unit → Prog ControllerSig Outcome}
    (hguard : guard s.2.used s.1 fun i => { s.1.world.hosts i with domains := ∅ }) :
    Workload.Reach guard ⟨s, prog⟩ ⟨wiped s, prog⟩ :=
  .single ⟨.env, .env ⟨.hosts hguard, rfl⟩, fun _ _ h => nomatch h⟩

/-- Two reconciles, all domains are deleted, and another reconcile. -/
theorem reach_of_usageOn_wiped {guard : Bool → Management → (ℕ → Host) → Prop} {s : Management}
    {css₁ css₂ css₃ : List (List ManagementChoice)} {s₁ s₂ s₃ : Management × Usage}
    (hguard : guard s₂.2.used s₂.1 fun i => { s₂.1.world.hosts i with domains := ∅ })
    (h₁ : usageOn css₁ (s, {}) = some s₁) (h₂ : usageOn css₂ s₁ = some s₂)
    (h₃ : usageOn css₃ (wiped s₂) = some s₃) :
    ∃ b, Workload.Reach guard (.initial s) ⟨s₃, fun _ => .done b⟩ := by
  obtain ⟨a, hr₁⟩ := reach_of_usageOn (G := guard) (p := .initial s) rfl h₁
  obtain ⟨b, hr₂⟩ := reach_of_usageOn (G := guard) (p := ⟨s₁, fun _ => .done a⟩) rfl h₂
  obtain ⟨c, hr₃⟩ := reach_of_usageOn (G := guard) (p := ⟨wiped s₂, fun _ => .done b⟩) rfl h₃
  exact ⟨c, ((hr₁.trans hr₂).trans (reach_wiped hguard)).trans hr₃⟩

theorem bootstrap_used_at_most_once_home : ∃ p : Workload,
    Workload.Reach SameForm (.initial homeManagement) p
    ∧ (p.state.1.world.hosts 0).present (domainName sampleMachine) = false
    ∧ p.state.1.api.machine.map (·.spec.providerID) = some none
    ∧ p.state.2.again = false
    ∧ ∀ o k, p.prog () = .call o k → ∀ cfg, o ≠ .provider (.createMachine cfg) := by
  have hrun : ((usageOn [] (homeManagement, {})).bind fun s =>
      (usageOn (List.replicate 9 [] ++ List.replicate 3 [outage]) s).bind fun s =>
        (usageOn [] (wiped s)).map fun s' =>
          ((s'.1.world.hosts 0).present (domainName sampleMachine),
            s'.1.api.machine.map (·.spec.providerID))) = some (false, some none) := by
    decide +kernel
  obtain ⟨s₁, h₁, hrun⟩ := Option.bind_eq_some_iff.mp hrun
  obtain ⟨s₂, h₂, hrun⟩ := Option.bind_eq_some_iff.mp hrun
  obtain ⟨s₃, h₃, hout⟩ := Option.map_eq_some_iff.mp hrun
  obtain ⟨habsent, hid⟩ := Prod.mk.inj hout
  obtain ⟨b, hreach⟩ : ∃ b, Workload.Reach SameForm (.initial homeManagement) _ :=
    reach_of_usageOn_wiped (fun _ => rfl) h₁ h₂ h₃
  exact ⟨_, hreach, habsent, hid, bootstrap_used_at_most_once (fun _ => rfl) hreach⟩

/-- **A machine is created twice**, once errors are recognised. The first time,
the patch that would store the provider ID fails; then the domain is deleted on
its host. -/
theorem bootstrap_used_twice : ∃ p : Workload,
    Workload.Reach (fun _ _ _ => True) (.initial pointerManagement) p
    ∧ p.state.2.again = true := by
  have hrun : ((usageOn [] (pointerManagement, {})).bind fun s =>
      (usageOn (List.replicate 9 [] ++ List.replicate 3 [outage]) s).bind fun s =>
        (usageOn [] (wiped s)).map fun s' => s'.2.again) = some true := by decide +kernel
  obtain ⟨s₁, h₁, hrun⟩ := Option.bind_eq_some_iff.mp hrun
  obtain ⟨s₂, h₂, hrun⟩ := Option.bind_eq_some_iff.mp hrun
  obtain ⟨s₃, h₃, hout⟩ := Option.map_eq_some_iff.mp hrun
  obtain ⟨b, hreach⟩ : ∃ b, Workload.Reach (fun _ _ _ => True) (.initial pointerManagement) _ :=
    reach_of_usageOn_wiped trivial h₁ h₂ h₃
  exact ⟨_, hreach, hout⟩

end LibvirtProvider

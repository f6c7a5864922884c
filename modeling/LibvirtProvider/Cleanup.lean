import LibvirtProvider.Provider

/-!
# Deleting a machine

`DeleteMachine` removes the domain, the two volumes and the DHCP host entry,
and its success is what lets the object go. Every step takes what it knows not
to be there for done, and one of them drops an error: when it is not known
whether the domain is running, it is not stopped before it is undefined.

From every state of the hosts that attempts to create and delete machines
lead to, a deletion that reports success has left nothing of the machine
behind unless the domain was running and `IsActive` failed, and it has left
everything else as it was (`deleteMachine_clean_iff`). The domain that is
left then is running and no longer defined.

The host entry needs the past: that the one entry of the machine's MAC stands
in the first `<ip>` element, under the machine's name, which is what the
update removes (`Sole`).
-/

namespace LibvirtProvider

open Interaction

/-! ## The host entry -/

/-- An entry that is found for a machine, by its MAC or its name. libvirt
looks for either when an entry is modified, so both have to be kept in view. -/
def ownEntry (d : String) (e : NetworkDHCPHost) : Bool :=
  equalFold e.mac (deriveDomainMAC d) || e.name == d

/-- Of a machine's entries there is, in a list, none with its MAC, or one
only, with its MAC and its name. -/
def SoleIn (d : String) (l : List NetworkDHCPHost) : Prop :=
  (∀ e ∈ l, foldKey e.mac ≠ foldKey (deriveDomainMAC d))
  ∨ ∃ e, foldKey e.mac = foldKey (deriveDomainMAC d) ∧ e.name = d
    ∧ l.filter (ownEntry d) = [e]

/-- **The entry of a machine stands alone**, in the first `<ip>` element. The
provider finds an entry by MAC anywhere and deletes by MAC, name and address
in the first element; with this the two come to the same entry. -/
structure Sole (d : String) (network : Network) : Prop where
  first : SoleIn d network.firstHosts
  rest : ∀ e ∈ network.restHosts, foldKey e.mac ≠ foldKey (deriveDomainMAC d)

section Entries

variable {d d' ip : String} {e a host : NetworkDHCPHost} {l l' pre post : List NetworkDHCPHost}

theorem ownEntry_iff :
    ownEntry d e = true ↔ foldKey e.mac = foldKey (deriveDomainMAC d) ∨ e.name = d := by
  rw [ownEntry, Bool.or_eq_true, equalFold_iff, beq_iff_eq]

theorem ownEntry_self : ownEntry d ⟨deriveDomainMAC d, d, ip⟩ = true :=
  ownEntry_iff.mpr (Or.inr rfl)

/-- Where there is one entry of its kind, taking out another one changes
nothing, and taking out this one leaves none. -/
theorem filter_split {p : NetworkDHCPHost → Bool}
    (h : (pre ++ a :: post).filter p = [e]) :
    p a = false ∧ (pre ++ post).filter p = [e] ∨ a = e ∧ (pre ++ post).filter p = [] := by
  rw [List.filter_append] at h ⊢
  cases ha : p a with
  | false =>
    rw [List.filter_cons_of_neg (by simp [ha])] at h
    exact Or.inl ⟨rfl, h⟩
  | true =>
    rw [List.filter_cons_of_pos ha] at h
    obtain ⟨hpre, hrest⟩ | ⟨hpre, hrest⟩ := List.append_eq_singleton_iff.mp h
    · obtain ⟨rfl, hpost⟩ := List.cons_eq_cons.mp hrest
      exact Or.inr ⟨rfl, by rw [hpre, hpost]; rfl⟩
    · cases hrest

theorem mac_ne_of_filter_eq_nil (h : l.filter (ownEntry d) = []) :
    ∀ x ∈ l, foldKey x.mac ≠ foldKey (deriveDomainMAC d) := fun x hx hmac =>
  List.filter_eq_nil_iff.mp h x hx (ownEntry_iff.mpr (Or.inl hmac))

namespace SoleIn

/-- The machine's entry is added where nothing clashes with it. -/
theorem add_own
    (hclash : ∀ e ∈ l, foldKey e.mac ≠ foldKey (deriveDomainMAC d) ∧ e.name ≠ d) :
    SoleIn d (l ++ [⟨deriveDomainMAC d, d, ip⟩]) := by
  refine Or.inr ⟨⟨deriveDomainMAC d, d, ip⟩, rfl, rfl, ?_⟩
  have hl : l.filter (ownEntry d) = [] := by
    rw [List.filter_eq_nil_iff]
    intro e he hown
    exact (ownEntry_iff.mp hown).elim (hclash e he).1 (hclash e he).2
  rw [List.filter_append, hl, List.filter_cons_of_pos ownEntry_self]
  rfl

/-- The machine's entry is modified, where there is one of its MAC. -/
theorem modify_own (h : SoleIn d l)
    (hu : updateHosts .modify ⟨deriveDomainMAC d, d, ip⟩ l = some l')
    (hx : ∃ x ∈ l, foldKey x.mac = foldKey (deriveDomainMAC d)) : SoleIn d l' := by
  rcases h with h | ⟨e, -, -, hfilter⟩
  · obtain ⟨x, hx, hmac⟩ := hx
    exact absurd hmac (h x hx)
  obtain ⟨pre, a, post, rfl, ha, -, rfl⟩ := updateHosts_modify hu
  rcases filter_split hfilter with ⟨hne, -⟩ | ⟨-, hnil⟩
  · rw [ownEntry_iff.mpr ha] at hne
    cases hne
  · rw [List.filter_append, List.append_eq_nil_iff] at hnil
    refine Or.inr ⟨⟨deriveDomainMAC d, d, ip⟩, rfl, rfl, ?_⟩
    rw [List.filter_append, hnil.1, List.filter_cons_of_pos ownEntry_self, hnil.2]
    rfl

/-- Any entry is deleted. -/
theorem delete (h : SoleIn d l) (hu : updateHosts .delete host l = some l') : SoleIn d l' := by
  obtain ⟨pre, a, post, rfl, -, -, -, rfl⟩ := updateHosts_delete hu
  rcases h with h | ⟨e, hmac, hname, hfilter⟩
  · exact Or.inl fun x hx => h x (List.mem_append.mpr
      ((List.mem_append.mp hx).imp_right (List.mem_cons_of_mem a)))
  · rcases filter_split hfilter with ⟨-, hkeep⟩ | ⟨-, hnil⟩
    · exact Or.inr ⟨e, hmac, hname, hkeep⟩
    · exact Or.inl (mac_ne_of_filter_eq_nil hnil)

/-- An entry of another machine is put in. -/
theorem insert_other (h : SoleIn d (pre ++ post))
    (hmac : foldKey host.mac ≠ foldKey (deriveDomainMAC d)) (hname : host.name ≠ d) :
    SoleIn d (pre ++ host :: post) := by
  have hown : ownEntry d host = false := by
    rw [← Bool.not_eq_true, ownEntry_iff]
    exact not_or.mpr ⟨hmac, hname⟩
  rcases h with h | ⟨e, hmac', hname', hfilter⟩
  · refine Or.inl fun x hx => ?_
    rcases List.mem_append.mp hx with hx | hx
    · exact h x (List.mem_append_left _ hx)
    · rcases List.mem_cons.mp hx with rfl | hx
      · exact hmac
      · exact h x (List.mem_append_right _ hx)
  · refine Or.inr ⟨e, hmac', hname', ?_⟩
    rw [List.filter_append, List.filter_cons_of_neg (by simp [hown]), ← List.filter_append, hfilter]

/-- An entry of another machine is modified: the one overwritten is not this
machine's. -/
theorem modify_other (h : SoleIn d l)
    (hmac : foldKey host.mac ≠ foldKey (deriveDomainMAC d)) (hname : host.name ≠ d)
    (hu : updateHosts .modify host l = some l') : SoleIn d l' := by
  obtain ⟨pre, a, post, rfl, ha, -, rfl⟩ := updateHosts_modify hu
  refine insert_other ?_ hmac hname
  rcases h with h | ⟨e, hmac', hname', hfilter⟩
  · exact Or.inl fun x hx => h x (List.mem_append.mpr
      ((List.mem_append.mp hx).imp_right (List.mem_cons_of_mem a)))
  · rcases filter_split hfilter with ⟨-, hkeep⟩ | ⟨rfl, -⟩
    · exact Or.inr ⟨e, hmac', hname', hkeep⟩
    · rcases ha with ha | ha
      · exact absurd (ha.symm.trans hmac') hmac
      · exact absurd (ha.symm.trans hname') hname

end SoleIn

end Entries

namespace Sole

variable {d d' : String} {network network' : Network}

theorem of_none (h : ∀ e ∈ network.hosts, foldKey e.mac ≠ foldKey (deriveDomainMAC d)) :
    Sole d network :=
  ⟨Or.inl fun e he => h e (Network.mem_hosts.mpr (Or.inl he)),
    fun e he => h e (Network.mem_hosts.mpr (Or.inr he))⟩

/-- **A call for a machine keeps the entry of a machine alone**, its own or
that of one with another MAC. A machine with the same MAC could take the entry
over, under its own name. -/
theorem step (h : Sole d network) (hd : d' = d ∨ deriveDomainMAC d' ≠ deriveDomainMAC d)
    (hs : ReservationStep {d'} network network') : Sole d network' := by
  have hother : deriveDomainMAC d' ≠ deriveDomainMAC d →
      foldKey (deriveDomainMAC d') ≠ foldKey (deriveDomainMAC d) ∧ d' ≠ d := fun hne =>
    ⟨fun hfold => hne (deriveDomainMAC_eq_of_foldKey_eq hfold), fun heq => hne (heq ▸ rfl)⟩
  cases hs with
  | reserve hmem he =>
    obtain rfl := hmem
    rcases reserveMachineIP_exec he with ⟨-, rfl⟩ | ⟨ip, -, -, -, hcases⟩
    · exact h
    rcases hcases with ⟨_, -, -, rfl⟩ | ⟨x, hx, -, hu⟩ | ⟨-, hu⟩
    · exact h
    · obtain ⟨hu, hrest⟩ := Network.update_zero hu
      refine ⟨?_, hrest ▸ h.rest⟩
      rcases hd with rfl | hne
      · obtain ⟨hmac, pre, post, hhosts, -⟩ := hostEntryInNetwork_eq_some.mp hx
        have hmem : x ∈ network.hosts := hhosts ▸ by simp
        exact h.first.modify_own hu ⟨x, (Network.mem_hosts.mp hmem).resolve_right
          fun hmem => h.rest x hmem hmac, hmac⟩
      · exact h.first.modify_other (hother hne).1 (hother hne).2 hu
    · obtain ⟨hu, hrest⟩ := Network.update_zero hu
      refine ⟨?_, hrest ▸ h.rest⟩
      obtain ⟨hclash, hfirst⟩ := updateHosts_addLast.mp hu
      rw [hfirst]
      rcases hd with rfl | hne
      · exact SoleIn.add_own fun e he => ⟨(hclash e he).1, (hclash e he).2.1⟩
      · refine SoleIn.insert_other ?_ (hother hne).1 (hother hne).2
        rw [List.append_nil]
        exact h.first
  | release hmem he =>
    rcases releaseMachineIP_exec he with ⟨-, rfl⟩ | ⟨-, -, rfl⟩ | ⟨-, _, -, hu⟩
    · exact h
    · exact h
    · obtain ⟨hu, hrest⟩ := Network.update_zero hu
      exact ⟨h.first.delete hu, hrest ▸ h.rest⟩

theorem run (h : Sole d network) (hd : d' = d ∨ deriveDomainMAC d' ≠ deriveDomainMAC d)
    (hr : ReservationRun {d'} network network') : Sole d network' := by
  induction hr with
  | refl => exact h
  | tail _ hs ih => exact ih.step hd hs

/-- **A release that succeeds removes the machine's entry** and no other. That
it succeeds is not enough in general, since there might be a second entry of
the MAC. -/
theorem release (h : Sole d network) {netName : String} {tr : List (Event NetworkSig)}
    (he : Prog.Exec networkSem (releaseMachineIP netName d (deriveDomainMAC d)).run network tr
      network' (.ok ())) :
    (∀ e ∈ network'.hosts, foldKey e.mac ≠ foldKey (deriveDomainMAC d))
    ∧ network'.hosts.filter (fun e => !equalFold e.mac (deriveDomainMAC d))
      = network.hosts.filter (fun e => !equalFold e.mac (deriveDomainMAC d)) := by
  rcases releaseMachineIP_exec he with ⟨⟨_, hr⟩, -⟩ | ⟨-, hnone, rfl⟩ | ⟨-, x, hx, hu⟩
  · cases hr
  · exact ⟨hostEntryInNetwork_eq_none.mp hnone, rfl⟩
  obtain ⟨pre, a, post, hhosts, hhosts', hmac, -⟩ := Network.update_delete hu
  obtain ⟨hu, hrest⟩ := Network.update_zero hu
  constructor
  · intro e he
    rcases Network.mem_hosts.mp he with he | he
    · obtain ⟨pre, a, post, hfirst, hmac, -, -, hfirst'⟩ := updateHosts_delete hu
      rw [hfirst'] at he
      rcases h.first with h' | ⟨x, -, -, hfilter⟩
      · exact absurd hmac (h' a (hfirst ▸ by simp))
      · rw [hfirst] at hfilter
        rcases filter_split hfilter with ⟨hne, -⟩ | ⟨-, hnil⟩
        · rw [ownEntry_iff.mpr (Or.inl hmac)] at hne
          cases hne
        · exact mac_ne_of_filter_eq_nil hnil e he
    · exact h.rest e (hrest ▸ he)
  · rw [hhosts, hhosts', List.filter_append, List.filter_append,
      List.filter_cons_of_neg (by simpa using hmac)]

end Sole

/-! ## The domain -/

/-- A domain of the name is running. -/
def Domains.Running (ds : Domains) (name : String) : Prop :=
  ∃ d, ds.lookup name = some d ∧ d.active = true

/-- A domain of the name is defined. -/
def Domains.Defined (ds : Domains) (name : String) : Prop :=
  ∃ d, ds.lookup name = some d ∧ d.persistent = true

instance (ds : Domains) (name : String) : Decidable (ds.Defined name) :=
  decidable_of_iff (∃ d ∈ ds.lookup name, d.persistent = true) Iff.rfl

/-- A call of `IsActive` that failed. -/
def failedIsActive : Event LibvirtSig → Bool
  | ⟨.isActive _, .error _⟩ => true
  | _ => false

section Domain

variable {s s' : Host} {name : String} {tr : List (Event LibvirtSig)}

/-- **The domain is undefined with success**, when the handle was looked up
before: it was defined, and is gone unless it was running. -/
theorem undefine_exec {d : Domain} {f : GoError → GoError}
    (hd : s.domains.lookup name = some d)
    (h : Prog.Exec libvirtSem (ExceptT.adapt f (Conn.undefine ⟨name, d.uuid⟩)).run s tr s'
      (.ok ())) :
    tr.any failedIsActive = false ∧ d.persistent = true
    ∧ (s'.domains.lookup name = none ↔ d.active = false)
    ∧ (∀ n ≠ name, s'.domains.lookup n = s.domains.lookup n) := by
  obtain ⟨hs, rfl⟩ := Prog.exec_perform.mp (Prog.exec_adapt_ok.mp h)
  rcases libvirtSem_undefine hs with ⟨⟨e, hr⟩, -⟩ | ⟨-, d', hget, hp, rfl⟩
  · cases hr
  obtain rfl : d' = d := by
    have := (Domains.get_eq_some.mp hget).1
    exact Option.some.inj (this.symm.trans hd)
  refine ⟨rfl, hp, ?_, fun n hn => ?_⟩
  · cases ha : d'.active <;> simp [AList.lookup_erase, AList.lookup_insert]
  · cases ha : d'.active <;> simp [AList.lookup_erase_ne, AList.lookup_insert_ne, hn]

/-- **A run of `deleteDomain` that succeeds.** The domain is gone, unless it
was running and `IsActive` failed: then it was undefined while running, and
goes on. It was defined, or that there was none was recognised. -/
theorem deleteDomain_exec
    (h : Prog.Exec libvirtSem (deleteDomain name).run s tr s' (.ok ())) :
    (s'.domains.lookup name = none
      ↔ ¬ (s.domains.Running name ∧ tr.any failedIsActive = true))
    ∧ (∀ n ≠ name, s'.domains.lookup n = s.domains.lookup n)
    ∧ (s.errors = .value → s.domains.Defined name) := by
  obtain ⟨found, s₁, _, tr₁, rfl, hx, h₁⟩ := Prog.exec_lift_bind.mp h
  obtain ⟨hs, rfl⟩ := Prog.exec_perform.mp hx
  obtain rfl := libvirtSem_query hs rfl
  rcases LibvirtChoice.exists_answer.mp hs with ⟨⟨code, rfl⟩, -⟩ | ⟨rfl, -⟩
  · exact absurd (Prog.exec_excused_ok.mp h₁).1 (by simp)
  cases hd : s₁.domains.lookup name with
  | none =>
    simp only [Domains.lookupDomainByName, hd] at h₁
    obtain ⟨hform, -, rfl, rfl⟩ := Prog.exec_excused_ok.mp h₁
    refine ⟨iff_of_true hd ?_, fun _ _ => rfl, fun hvalue => ?_⟩
    · rintro ⟨⟨d, hd', -⟩, -⟩
      cases hd.symm.trans hd'
    · simp [hvalue] at hform
  | some d =>
    simp only [Domains.lookupDomainByName, hd] at h₁
    obtain ⟨active, s₂, _, tr₂, rfl, hx, h₂⟩ := Prog.exec_lift_bind.mp h₁
    obtain ⟨hs, rfl⟩ := Prog.exec_perform.mp hx
    obtain rfl := libvirtSem_query hs rfl
    have hrunning : s₂.domains.Running name ↔ d.active = true :=
      ⟨fun ⟨d', hd', ha⟩ => Option.some.inj (hd.symm.trans hd') ▸ ha, fun ha => ⟨d, hd, ha⟩⟩
    rcases LibvirtChoice.exists_answer.mp hs with ⟨⟨code, rfl⟩, -⟩ | ⟨rfl, -⟩
    · -- it is not known whether the domain is running
      obtain ⟨-, hp, hgone, hother⟩ := undefine_exec hd h₂
      refine ⟨?_, hother, fun _ => ⟨d, hd, hp⟩⟩
      rw [hgone, hrunning]
      simp [failedIsActive]
    have hactive : s₂.domains.isActive ⟨name, d.uuid⟩ = .ok d.active := by
      rw [Domains.isActive, Domains.get_eq_some.mpr ⟨hd, rfl⟩]
    simp only [hactive, Except.mapError] at h₂ ⊢
    cases ha : d.active with
    | false =>
      rw [ha] at h₂
      obtain ⟨-, hp, hgone, hother⟩ := undefine_exec hd h₂
      refine ⟨iff_of_true (hgone.mpr ha) fun hr => ?_, hother, fun _ => ⟨d, hd, hp⟩⟩
      simp [hrunning, ha] at hr
    | true =>
      rw [ha] at h₂
      obtain ⟨_, s₃, _, tr₃, rfl, hx, h₃⟩ := Prog.exec_bind_ok.mp h₂
      obtain ⟨hs, rfl⟩ := Prog.exec_perform.mp (Prog.exec_adapt_ok.mp hx)
      rcases libvirtSem_destroy hs with ⟨⟨e, hr⟩, -⟩ | ⟨-, d', hget, -, hs₃⟩
      · cases hr
      obtain rfl : d' = d := Option.some.inj ((Domains.get_eq_some.mp hget).1.symm.trans hd)
      cases hp : d'.persistent with
      | false =>
        -- a domain that is not defined is gone once it is stopped
        obtain ⟨hs, -⟩ := Prog.exec_perform.mp (Prog.exec_adapt_ok.mp h₃)
        rcases libvirtSem_undefine hs with ⟨⟨e, hr⟩, -⟩ | ⟨-, d, hget, -, -⟩
        · cases hr
        · simp [hs₃, hp, Domains.get_eq_some, AList.lookup_erase] at hget
      | true =>
        have hd₃ : s₃.domains.lookup name
            = some { d' with active := false, state := .shutoff } := by simp [hs₃, hp]
        obtain ⟨hfail, -, hgone, hother⟩ := undefine_exec hd₃ h₃
        refine ⟨iff_of_true (hgone.mpr rfl) fun hr => ?_, fun n hn => ?_, fun _ => ⟨d', hd, hp⟩⟩
        · simpa [failedIsActive, hfail] using hr.2
        · rw [hother n hn]
          simp [hs₃, hp, AList.lookup_insert_ne, hn]

end Domain

/-! ## The volumes -/

/-- **A run of `deleteVolume` that succeeds.** The volume was there, or that it
was not was recognised. -/
theorem deleteVolume_exec {s s' : Host} {pool name : String} {tr : List (Event LibvirtSig)}
    (h : Prog.Exec libvirtSem (deleteVolume pool name).run s tr s' (.ok ())) :
    s'.storage.volume pool name = none
    ∧ (∀ p n, ¬ (p = pool ∧ n = name) → s'.storage.volume p n = s.storage.volume p n)
    ∧ (s.errors = .value → (s.storage.volume pool name).isSome) := by
  obtain ⟨found, s₁, _, tr₁, rfl, hx, h₁⟩ := Prog.exec_lift_bind.mp h
  obtain ⟨hs, rfl⟩ := Prog.exec_perform.mp hx
  obtain rfl := libvirtSem_query hs rfl
  rcases LibvirtChoice.exists_answer.mp hs with ⟨⟨code, rfl⟩, -⟩ | ⟨rfl, -⟩
  · exact absurd (Prog.exec_excused_ok.mp h₁).1 (by simp)
  cases hp : s₁.storage.pools pool with
  | none =>
    simp only [Storage.lookupStoragePoolByName, hp] at h₁
    obtain ⟨hform, -, rfl, -⟩ := Prog.exec_excused_ok.mp h₁
    refine ⟨by simp [Storage.volume, hp], fun _ _ _ => rfl, fun hvalue => ?_⟩
    simp [hvalue] at hform
  | some p => ?_
  simp only [Storage.lookupStoragePoolByName, hp] at h₁
  obtain ⟨found, s₂, _, tr₂, rfl, hx, h₂⟩ := Prog.exec_lift_bind.mp h₁
  obtain ⟨hs, rfl⟩ := Prog.exec_perform.mp hx
  obtain rfl := libvirtSem_query hs rfl
  rcases LibvirtChoice.exists_answer.mp hs with ⟨⟨code, rfl⟩, -⟩ | ⟨rfl, -⟩
  · exact absurd (Prog.exec_excused_ok.mp h₂).1 (by simp)
  cases hv : s₂.storage.volume pool name with
  | none =>
    simp only [Storage.lookupStorageVolByName, hv] at h₂
    obtain ⟨hform, -, rfl, -⟩ := Prog.exec_excused_ok.mp h₂
    refine ⟨hv, fun _ _ _ => rfl, fun hvalue => ?_⟩
    simp [hvalue] at hform
  | some v =>
    simp only [Storage.lookupStorageVolByName, hv] at h₂
    obtain ⟨hs, -⟩ := Prog.exec_perform.mp (Prog.exec_adapt_ok.mp h₂)
    rcases LibvirtChoice.exists_answer.mp hs with ⟨⟨code, hr⟩, -⟩ | ⟨-, rfl⟩
    · cases hr
    have hdel : s₂.storage.deleteVol ⟨pool, name⟩
        = (.ok (), s₂.storage.setVolume pool name none) := by
      simp only [Storage.deleteVol, hv]
    simp only [Host.onStorage, hdel]
    exact ⟨s₂.storage.volume_setVolume_self _ (by simp [Storage.target, hp]), fun p n hne =>
      s₂.storage.volume_setVolume_of_ne _ hne, fun _ => rfl⟩

/-! ## A deletion -/

/-- **Nothing of a machine is left on a host**: no domain of its name, neither
of its volumes, and no entry of its MAC in the network. Entries are looked at
by MAC, whatever name they carry. -/
structure Clean (cfg : MachineConfig) (s : Host) : Prop where
  domain : s.domains.lookup cfg.domainName = none
  rootDisk : s.storage.volume cfg.domainPool cfg.domainDiskName = none
  isoDisk : s.storage.volume cfg.domainPool cfg.isoDiskName = none
  entry : ∀ network, s.networks cfg.network = some network →
    ∀ e ∈ network.hosts, foldKey e.mac ≠ foldKey cfg.mac

/-- **Everything that is not the machine's is as it was.** Of the machine's
network that is said of the entries of other MACs, in their order. -/
structure OthersKept (cfg : MachineConfig) (s s' : Host) : Prop where
  domains : ∀ name ≠ cfg.domainName, s'.domains.lookup name = s.domains.lookup name
  volumes : ∀ pool name, ¬ (pool = cfg.domainPool
    ∧ (name = cfg.domainDiskName ∨ name = cfg.isoDiskName)) →
      s'.storage.volume pool name = s.storage.volume pool name
  networks : ∀ name ≠ cfg.network, s'.networks name = s.networks name
  entries : ∀ network network', s.networks cfg.network = some network →
    s'.networks cfg.network = some network' →
      network'.hosts.filter (fun e => !equalFold e.mac cfg.mac)
        = network.hosts.filter (fun e => !equalFold e.mac cfg.mac)

section Delete

variable {cfg : MachineConfig} {s s' : Host} {tr : List (Event LibvirtSig)} {network : Network}

theorem any_failedIsActive {α : Type} {p : Prog LibvirtSig α} {a : α}
    (hp : p.Calls fun o : LibvirtOp => ∀ dom, o ≠ .isActive dom)
    (h : Prog.Exec libvirtSem p s tr s' a) : tr.any failedIsActive = false := by
  rw [List.any_eq_false]
  intro ev hev hfail
  unfold failedIsActive at hfail
  split at hfail
  · exact hp.of_mem h hev _ rfl
  · cases hfail

/-! The steps of a deletion leave each other's things alone. -/

theorem deleteDomain_frame {name : String} {r : Except GoError Unit}
    (h : Prog.Exec libvirtSem (deleteDomain name).run s tr s' r) :
    s'.storage = s.storage ∧ s'.networks = s.networks := by
  have hcalls : (deleteDomain name).run.Calls fun o : LibvirtOp =>
      o.touchesStorage = false ∧ o.touchesNetworks = false :=
    deleteDomain_calls (fun _ ho => (LibvirtOp.isQuery_iff.mp ho).2) (fun _ => ⟨rfl, rfl⟩)
      (fun _ => ⟨rfl, rfl⟩) name
  exact ⟨hcalls.keeps Host.storage (fun _ _ _ _ ho hs => libvirtSem_storage hs ho.1) h,
    hcalls.keeps Host.networks (fun _ _ _ _ ho hs => libvirtSem_networks hs ho.2) h⟩

theorem deleteVolume_frame {pool name : String} {r : Except GoError Unit}
    (h : Prog.Exec libvirtSem (deleteVolume pool name).run s tr s' r) :
    s'.domains = s.domains ∧ s'.networks = s.networks ∧ tr.any failedIsActive = false := by
  have hcalls : (deleteVolume pool name).run.Calls fun o : LibvirtOp =>
      o.touchesDomains = false ∧ o.touchesNetworks = false ∧ ∀ dom, o ≠ .isActive dom :=
    deleteVolume_calls (fun _ => ⟨rfl, rfl, fun _ h => nomatch h⟩)
      (fun _ _ => ⟨rfl, rfl, fun _ h => nomatch h⟩) (fun _ => ⟨rfl, rfl, fun _ h => nomatch h⟩)
      pool name
  exact ⟨hcalls.keeps Host.domains (fun _ _ _ _ ho hs => libvirtSem_domains hs ho.1) h,
    hcalls.keeps Host.networks (fun _ _ _ _ ho hs => libvirtSem_networks hs ho.2.1) h,
    any_failedIsActive (hcalls.mono fun _ ho => ho.2.2) h⟩

theorem releaseMachineReservation_frame {r : Except GoError Unit}
    (h : Prog.Exec libvirtSem (releaseMachineReservation cfg).run s tr s' r) :
    s'.domains = s.domains ∧ s'.storage = s.storage ∧ tr.any failedIsActive = false := by
  have hcalls : (releaseMachineReservation cfg).run.Calls fun o : LibvirtOp =>
      o.touchesDomains = false ∧ o.touchesStorage = false ∧ ∀ dom, o ≠ .isActive dom :=
    releaseMachineReservation_calls (fun _ => ⟨rfl, rfl, fun _ h => nomatch h⟩)
      (fun _ _ _ => ⟨rfl, rfl, fun _ h => nomatch h⟩) cfg
  exact ⟨hcalls.keeps Host.domains (fun _ _ _ _ ho hs => libvirtSem_domains hs ho.1) h,
    hcalls.keeps Host.storage (fun _ _ _ _ ho hs => libvirtSem_storage hs ho.2.1) h,
    any_failedIsActive (hcalls.mono fun _ ho => ho.2.2) h⟩

/-- **A run of the release.** -/
theorem releaseMachineReservation_exec {r : Except GoError Unit}
    (h : Prog.Exec libvirtSem (releaseMachineReservation cfg).run s tr s' r) :
    ((∃ e, r = .error e) ∨ s.networks cfg.network = none ∧ s.errors = .pointer) ∧ s' = s
    ∨ ∃ network tr' network', s.networks cfg.network = some network
      ∧ s' = s.setNetwork cfg.network network'
      ∧ Prog.Exec networkSem (releaseMachineIP cfg.network cfg.domainName cfg.mac).run network tr'
          network' r := by
  obtain ⟨found, s₁, _, tr₁, rfl, hx, h₁⟩ := Prog.exec_lift_bind.mp h
  obtain ⟨hs, rfl⟩ := Prog.exec_perform.mp hx
  obtain rfl := libvirtSem_query hs rfl
  rcases LibvirtChoice.exists_answer.mp hs with ⟨⟨code, rfl⟩, -⟩ | ⟨rfl, -⟩
  · obtain ⟨rfl, rfl, -⟩ := Prog.exec_excused.mp h₁
    exact Or.inl ⟨Or.inl ⟨_, if_neg (by simp)⟩, rfl⟩
  cases hnet : s₁.networks cfg.network with
  | none =>
    simp only [Host.lookupNetworkByName, hnet] at h₁
    obtain ⟨rfl, rfl, -⟩ := Prog.exec_excused.mp h₁
    cases hform : s'.errors with
    | value => exact Or.inl ⟨Or.inl ⟨_, if_neg (by simp)⟩, rfl⟩
    | pointer => exact Or.inl ⟨Or.inr ⟨rfl, rfl⟩, rfl⟩
  | some network =>
    simp only [Host.lookupNetworkByName, hnet] at h₁
    obtain ⟨tr', network', he, rfl⟩ := exec_onNetwork hnet h₁
    exact Or.inr ⟨network, tr', network', rfl, rfl, he⟩

/-- **A deletion on a host that succeeds** keeps everything else, and leaves
nothing of the machine but for the one case: the domain was running and
`IsActive` failed. -/
theorem deleteResources_exec
    (hsole : ∀ network, s.networks cfg.network = some network → Sole cfg.domainName network)
    (h : Prog.Exec libvirtSem (deleteResources cfg).run s tr s' (.ok ())) :
    OthersKept cfg s s'
    ∧ (Clean cfg s' ↔ ¬ (s.domains.Running cfg.domainName ∧ tr.any failedIsActive = true)) := by
  obtain ⟨_, s₁, tr₁, _, rfl, hx₁, h₁⟩ := Prog.exec_bind_ok.mp h
  obtain ⟨_, s₂, tr₂, _, rfl, hx₂, h₂⟩ := Prog.exec_bind_ok.mp h₁
  obtain ⟨_, s₃, tr₃, tr₄, rfl, hx₃, h₃⟩ := Prog.exec_bind_ok.mp h₂
  obtain ⟨hgone, hdomains, -⟩ := deleteDomain_exec hx₁
  obtain ⟨hstorage₁, hnetworks₁⟩ := deleteDomain_frame hx₁
  obtain ⟨hdomains₂, hnetworks₂, hquiet₂⟩ := deleteVolume_frame hx₂
  obtain ⟨hdomains₃, hnetworks₃, hquiet₃⟩ := deleteVolume_frame hx₃
  obtain ⟨hdomains₄, hstorage₄, hquiet₄⟩ := releaseMachineReservation_frame h₃
  obtain ⟨hdisk, hvolumes₂, -⟩ := deleteVolume_exec hx₂
  obtain ⟨hiso, hvolumes₃, -⟩ := deleteVolume_exec hx₃
  have hnetworks : s₃.networks = s.networks := by rw [hnetworks₃, hnetworks₂, hnetworks₁]
  -- the network is not there and stays so, or its entry is released
  obtain ⟨hother, hentries, hentry⟩ :
      (∀ name ≠ cfg.network, s'.networks name = s.networks name)
      ∧ (∀ network network', s.networks cfg.network = some network →
          s'.networks cfg.network = some network' →
          network'.hosts.filter (fun e => !equalFold e.mac cfg.mac)
            = network.hosts.filter (fun e => !equalFold e.mac cfg.mac))
      ∧ ∀ network, s'.networks cfg.network = some network →
          ∀ e ∈ network.hosts, foldKey e.mac ≠ foldKey cfg.mac := by
    rcases releaseMachineReservation_exec h₃ with
      ⟨⟨_, hr⟩ | ⟨hnone, -⟩, rfl⟩ | ⟨network, _, network', hnet, rfl, hrel⟩
    · cases hr
    · refine ⟨fun name _ => by rw [hnetworks], fun n n' hn hn' => ?_, fun n hn => ?_⟩
      · cases hn'.symm.trans hnone
      · cases hn.symm.trans hnone
    · obtain ⟨hentry, hentries⟩ := (hsole network (hnetworks ▸ hnet)).release hrel
      refine ⟨fun name hname => ?_, fun n n' hn hn' => ?_, fun n hn => ?_⟩
      · rw [Host.networks_setNetwork_of_ne _ hname, hnetworks]
      · rw [Host.networks_setNetwork_self] at hn'
        rw [← hnetworks] at hn
        cases hn.symm.trans hnet
        cases hn'
        exact hentries
      · rw [Host.networks_setNetwork_self] at hn
        cases hn
        exact hentry
  refine ⟨⟨?_, ?_, hother, hentries⟩, ?_⟩
  · intro name hname
    rw [hdomains₄, hdomains₃, hdomains₂, hdomains name hname]
  · intro pool name hne
    rw [hstorage₄, hvolumes₃ pool name fun h => hne ⟨h.1, Or.inr h.2⟩,
      hvolumes₂ pool name fun h => hne ⟨h.1, Or.inl h.2⟩, hstorage₁]
  · have hquiet : (tr₁ ++ (tr₂ ++ (tr₃ ++ tr₄))).any failedIsActive = tr₁.any failedIsActive := by
      simp only [List.any_append, hquiet₂, hquiet₃, hquiet₄, Bool.or_false]
    rw [hquiet, ← hgone]
    constructor
    · intro hclean
      have := hclean.domain
      rwa [hdomains₄, hdomains₃, hdomains₂] at this
    · intro hnone
      refine ⟨?_, ?_, ?_, hentry⟩
      · rw [hdomains₄, hdomains₃, hdomains₂, hnone]
      · rw [hstorage₄, hvolumes₃ _ _ fun h => cfg.domainDiskName_ne_isoDiskName h.2, hdisk]
      · rw [hstorage₄, hiso]

/-- **A host has the whole machine**: all that a deletion looks up is there. -/
structure Whole (cfg : MachineConfig) (s : Host) : Prop where
  domain : s.domains.Defined cfg.domainName
  rootDisk : (s.storage.volume cfg.domainPool cfg.domainDiskName).isSome
  isoDisk : (s.storage.volume cfg.domainPool cfg.isoDiskName).isSome
  network : (s.networks cfg.network).isSome

instance (cfg : MachineConfig) (s : Host) : Decidable (Whole cfg s) :=
  decidable_of_iff (s.domains.Defined cfg.domainName
      ∧ (s.storage.volume cfg.domainPool cfg.domainDiskName).isSome
      ∧ (s.storage.volume cfg.domainPool cfg.isoDiskName).isSome
      ∧ (s.networks cfg.network).isSome)
    ⟨fun h => ⟨h.1, h.2.1, h.2.2.1, h.2.2.2⟩,
      fun h => ⟨h.domain, h.rootDisk, h.isoDisk, h.network⟩⟩

/-- **A deletion succeeds only on a host with the whole machine**, when errors
come by value: then each of its lookups has to find something, because that
there is nothing to be found is an error like any other. -/
theorem deleteResources_whole (hform : s.errors = .value)
    (h : Prog.Exec libvirtSem (deleteResources cfg).run s tr s' (.ok ())) : Whole cfg s := by
  obtain ⟨_, s₁, tr₁, _, rfl, hx₁, h₁⟩ := Prog.exec_bind_ok.mp h
  obtain ⟨_, s₂, tr₂, _, rfl, hx₂, h₂⟩ := Prog.exec_bind_ok.mp h₁
  obtain ⟨_, s₃, tr₃, tr₄, rfl, hx₃, h₃⟩ := Prog.exec_bind_ok.mp h₂
  have hform₁ : s₁.errors = .value := (exec_errors hx₁).trans hform
  have hform₂ : s₂.errors = .value := (exec_errors hx₂).trans hform₁
  have hform₃ : s₃.errors = .value := (exec_errors hx₃).trans hform₂
  obtain ⟨hstorage₁, hnetworks₁⟩ := deleteDomain_frame hx₁
  obtain ⟨-, hnetworks₂, -⟩ := deleteVolume_frame hx₂
  obtain ⟨-, hnetworks₃, -⟩ := deleteVolume_frame hx₃
  obtain ⟨-, -, hdomain⟩ := deleteDomain_exec hx₁
  obtain ⟨-, hvolumes₂, hdisk⟩ := deleteVolume_exec hx₂
  obtain ⟨-, -, hiso⟩ := deleteVolume_exec hx₃
  refine ⟨hdomain hform, ?_, ?_, ?_⟩
  · rw [← hstorage₁]
    exact hdisk hform₁
  · rw [← hstorage₁, ← hvolumes₂ _ _ fun h => cfg.domainDiskName_ne_isoDiskName h.2.symm]
    exact hiso hform₂
  · rw [← hnetworks₁, ← hnetworks₂, ← hnetworks₃]
    rcases releaseMachineReservation_exec h₃ with
      ⟨⟨_, hr⟩ | ⟨-, hpointer⟩, -⟩ | ⟨network, _, _, hnet, -⟩
    · cases hr
    · cases hform₃.symm.trans hpointer
    · exact Option.isSome_of_eq_some hnet

end Delete

/-! ## Attempts -/

/-- **The networks of a host change as by calls for a machine.** It is a
preorder, so that an operation is within it as soon as its steps are, and the
invariants of networks carry over to hosts. -/
def NetworksRun (d : String) (s s' : Host) : Prop :=
  ∀ net, Option.Rel (ReservationRun {d}) (s.networks net) (s'.networks net)

instance (d : String) : Std.Refl (NetworksRun d) where
  refl s net := by
    cases s.networks net with
    | none => exact .none
    | some network => exact .some .refl

instance (d : String) : IsTrans Host (NetworksRun d) where
  trans s s' s'' h h' net := by
    have h₁ := h net
    have h₂ := h' net
    generalize s.networks net = o, s'.networks net = o', s''.networks net = o'' at h₁ h₂
    cases h₁ with
    | none => exact h₂
    | some h₁ =>
      cases h₂ with
      | some h₂ => exact .some (h₁.trans h₂)

section Within

variable {α : Type} {d : String}

theorem networksRun_of_networks_eq {s s' : Host} (h : s'.networks = s.networks) :
    NetworksRun d s s' := fun net => by
  rw [h]
  exact Std.Refl.refl (r := NetworksRun d) s net

theorem networksRun_of_calls {p : Prog LibvirtSig α}
    (hp : p.Calls fun o : LibvirtOp => o.touchesNetworks = false) :
    Prog.Within libvirtSem (NetworksRun d) p :=
  hp.within fun _ _ _ _ ho hs => networksRun_of_networks_eq (libvirtSem_networks hs ho)

theorem networksRun_onNetwork {net : NetworkRef} {p : NetworkM α}
    (hp : ∀ network tr network' r, Prog.Exec networkSem p.run network tr network' r →
      ReservationRun {d} network network') :
    Prog.Within libvirtSem (NetworksRun d) (Conn.onNetwork net p).run := by
  intro s tr s' r h
  cases hn : s.networks net.name with
  | none =>
    have hcalls : (Conn.onNetwork net p).run.Calls fun o : LibvirtOp => ∃ o', o = .network net o' :=
      onNetwork_calls (fun o => ⟨o, rfl⟩) p
    obtain ⟨-, hsame⟩ := hcalls.invariant (I := fun t : Host =>
        t.networks net.name = none ∧ t.networks = s.networks) (by
      rintro t _ r t' ⟨hnone, ht⟩ ⟨o, rfl⟩ hs
      rcases libvirtSem_network hs with ⟨rfl, -⟩ | ⟨_, _, hsome, -⟩
      · exact ⟨hnone, ht⟩
      · cases hnone.symm.trans hsome) ⟨hn, rfl⟩ h
    exact networksRun_of_networks_eq hsame
  | some network =>
    obtain ⟨tr', network', he, rfl⟩ := exec_onNetwork hn h
    intro name
    by_cases hname : name = net.name
    · subst hname
      rw [Host.networks_setNetwork_self, hn]
      exact .some (hp _ _ _ _ he)
    · rw [Host.networks_setNetwork_of_ne _ hname]
      exact Std.Refl.refl (r := NetworksRun d) s name

/-- **Creating a machine** touches the networks by reserving its address. -/
theorem networksRun_createDomain (cfg : MachineConfig) :
    Prog.Within libvirtSem (NetworksRun cfg.domainName) (createDomain cfg).run := by
  have hq : ∀ o : LibvirtOp, o.asksStorage = true → o.touchesNetworks = false :=
    fun _ ho => (LibvirtOp.isQuery_iff.mp (LibvirtOp.isQuery_of_asksStorage ho)).2.2
  have hs : ∀ o : LibvirtOp, o.streams = true → o.touchesNetworks = false := by
    intro o ho
    cases o <;> first | rfl | cases ho
  refine .bind_except (networksRun_of_calls (.adapt ⟨rfl, fun _ => trivial⟩)) fun _ =>
    .bind_except (networksRun_of_calls (.adapt ⟨rfl, fun _ => trivial⟩)) fun _ =>
    .bind_except (networksRun_of_calls (.adapt (createRootDisk_calls hq fun _ _ => rfl))) fun _ =>
    .bind_except
      (networksRun_of_calls (.adapt (createISODisk_calls hq (fun _ _ => rfl) hs))) fun _ =>
    .bind_except (networksRun_of_calls (.adapt ⟨rfl, fun _ => trivial⟩)) fun _ =>
    .bind_except (networksRun_onNetwork fun _ _ _ _ he => .single (.reserve rfl he)) fun _ =>
    networksRun_of_calls (defineAndStart_calls rfl (fun _ => rfl) fun _ => rfl)

/-- **Deleting a machine** touches the networks by releasing its address. -/
theorem networksRun_deleteResources (cfg : MachineConfig) :
    Prog.Within libvirtSem (NetworksRun cfg.domainName) (deleteResources cfg).run := by
  have hvolume : ∀ name, Prog.Within libvirtSem (NetworksRun cfg.domainName)
      (deleteVolume cfg.domainPool name).run := fun name =>
    networksRun_of_calls (deleteVolume_calls (fun _ => rfl) (fun _ _ => rfl) (fun _ => rfl) _ _)
  refine .bind_except (networksRun_of_calls (deleteDomain_calls
      (fun _ ho => (LibvirtOp.isQuery_iff.mp ho).2.2) (fun _ => rfl) (fun _ => rfl) _)) fun _ =>
    .bind_except (hvolume _) fun _ => .bind_except (hvolume _) fun _ =>
    .lift_bind (networksRun_of_calls ⟨rfl, fun _ => trivial⟩) fun r => ?_
  cases r with
  | error err =>
    dsimp only
    split
    · exact .done _
    · exact .done _
  | ok net => exact networksRun_onNetwork fun _ _ _ _ he => .single (.release rfl he)

end Within

/-- The other machines are those with another MAC. For machines with this MAC
nothing is claimed, as they share the entry. -/
def NotAliased (cfg cfg' : MachineConfig) : Prop :=
  cfg'.domainName = cfg.domainName ∨ cfg'.mac ≠ cfg.mac

/-- **An attempt to create or to delete a machine**, this one or another, with
any call failing. Other machines may be on the same host, in the same pools
and networks. -/
inductive MachineStep (cfg : MachineConfig) : World → World → Prop where
  | create {w w' : World} {cfg' : MachineConfig} {tr : List (Event ProviderSig)}
      {r : Except GoError Unit} (hcfg : NotAliased cfg cfg')
      (h : Prog.Exec providerSem (createMachine cfg').run w tr w' r) : MachineStep cfg w w'
  | delete {w w' : World} {cfg' : MachineConfig} {tr : List (Event ProviderSig)}
      {r : Except GoError Unit} (hcfg : NotAliased cfg cfg')
      (h : Prog.Exec providerSem (deleteMachine cfg').run w tr w' r) : MachineStep cfg w w'

/-- Any number of attempts. -/
abbrev MachineRun (cfg : MachineConfig) : World → World → Prop :=
  Relation.ReflTransGen (MachineStep cfg)

/-- **What a deletion relies on**: in a network of a host, if it is there, the
entry of the machine stands alone. It holds of the past and not of the state
only, which is why the result is about runs. -/
def SoleOn (d net : String) (host : ℕ) (w : World) : Prop :=
  ∀ network, (w.hosts host).networks net = some network → Sole d network

namespace SoleOn

variable {cfg cfg' : MachineConfig} {net : String} {host : ℕ} {w w' : World}

/-- A program on a host that is within the calls for a machine. -/
theorem connected {α : Type} {p : LibvirtM α} {tr : List (Event ProviderSig)}
    {r : Except GoError α} (h : SoleOn cfg.domainName net host w) (hcfg : NotAliased cfg cfg')
    (hp : Prog.Within libvirtSem (NetworksRun cfg'.domainName) p.run)
    (he : Prog.Exec providerSem (connected cfg' p).run w tr w' r) :
    SoleOn cfg.domainName net host w' := by
  rcases connected_exec he with ⟨-, rfl, -⟩ | ⟨host', tr', s', -, hx, -, rfl⟩
  · exact h
  intro network' hn'
  by_cases hhost : host = host'
  · subst hhost
    rw [World.hosts_setHost_self] at hn'
    have hrel := hp _ _ _ _ hx net
    rw [hn'] at hrel
    cases hn : (w.hosts host).networks net with
    | none =>
      rw [hn] at hrel
      cases hrel
    | some network =>
      rw [hn] at hrel
      cases hrel with
      | some hrun => exact (h network hn).run hcfg hrun
  · rw [World.hosts_setHost_of_ne _ hhost] at hn'
    exact h network' hn'

theorem step (h : SoleOn cfg.domainName net host w) (hs : MachineStep cfg w w') :
    SoleOn cfg.domainName net host w' := by
  cases hs with
  | create hcfg he => exact h.connected hcfg (networksRun_createDomain _) he
  | delete hcfg he => exact h.connected hcfg (networksRun_deleteResources _) he

theorem run (h : SoleOn cfg.domainName net host w) (hr : MachineRun cfg w w') :
    SoleOn cfg.domainName net host w' := by
  induction hr with
  | refl => exact h
  | tail _ hs ih => exact ih.step hs

end SoleOn

theorem MachineRun.hostOf {cfg : MachineConfig} {w w' : World} (h : MachineRun cfg w w') :
    w'.hostOf = w.hostOf := by
  induction h with
  | refl => rfl
  | tail _ hs ih =>
    rw [← ih]
    cases hs with
    | create _ he => exact he.keeps World.hostOf fun _ _ _ _ => providerSem_hostOf
    | delete _ he => exact he.keeps World.hostOf fun _ _ _ _ => providerSem_hostOf

/-- A call of `IsActive` that failed, over a connection. -/
def failedIsActiveOn : Event ProviderSig → Bool
  | ⟨.libvirt _ (.isActive _), .error _⟩ => true
  | _ => false

theorem failedIsActiveOn_event (conn : ConnRef) (ev : Event LibvirtSig) :
    failedIsActiveOn (conn.event ev) = failedIsActive ev := by
  obtain ⟨o, r⟩ := ev
  cases o with
  | isActive dom => cases r <;> rfl
  | _ => rfl

/-- **When a deletion leaves nothing behind.** Start from hosts where the
network has no entry of the machine's MAC, and let any number of attempts to
create and to delete it and machines with other MACs pass, whichever calls
fail. If `DeleteMachine` returns nil then, whichever of its calls failed,
everything that is not the machine's is as it was; and nothing of the machine
is left exactly when it is not the case that its domain was running and
`IsActive` failed. -/
theorem deleteMachine_clean_iff {cfg : MachineConfig} {host : ℕ} {w₀ w w' : World}
    {tr : List (Event ProviderSig)} (hhost : w₀.hostOf cfg.uri = some host)
    (hentry : ∀ network, (w₀.hosts host).networks cfg.network = some network →
      ∀ e ∈ network.hosts, foldKey e.mac ≠ foldKey cfg.mac)
    (hrun : MachineRun cfg w₀ w)
    (he : Prog.Exec providerSem (deleteMachine cfg).run w tr w' (.ok ())) :
    (∀ h ≠ host, w'.hosts h = w.hosts h) ∧ OthersKept cfg (w.hosts host) (w'.hosts host)
    ∧ (Clean cfg (w'.hosts host) ↔
        ¬ ((w.hosts host).domains.Running cfg.domainName ∧ tr.any failedIsActiveOn = true)) := by
  have h₀ : SoleOn cfg.domainName cfg.network host w₀ := fun network hn => .of_none (hentry _ hn)
  have hsole := h₀.run hrun
  rcases connected_exec he with ⟨⟨_, hr⟩, -⟩ | ⟨host', tr', s', hhost', hx, rfl, rfl⟩
  · cases hr
  obtain rfl : host' = host := by
    rw [hrun.hostOf, hhost] at hhost'
    exact (Option.some.inj hhost').symm
  have hquiet : (⟨.connect cfg.toInfraConfig, (.ok ⟨host'⟩ : Except GoError ConnRef)⟩
      :: tr'.map (ConnRef.event ⟨host'⟩)).any failedIsActiveOn = tr'.any failedIsActive := by
    rw [List.any_cons, List.any_map]
    simp only [Function.comp_def, failedIsActiveOn_event]
    rfl
  rw [hquiet, World.hosts_setHost_self]
  exact ⟨fun h hne => World.hosts_setHost_of_ne _ hne _, deleteResources_exec hsole hx⟩

/-- There is nothing of the machine on the host to run on. -/
theorem clean_freshHost (form : ErrorForm) :
    Clean nodeConfig { freshHost with errors := form } := by
  refine ⟨rfl, rfl, rfl, ?_⟩
  rintro network ⟨⟩
  simp

/-- The machine is created, and deleted on given answers. It is what the
concrete runs are evaluated with. -/
def createThenDelete (w : World) (cs : List LibvirtChoice) :
    Option (World × List (Event ProviderSig) × World × Except GoError Unit) :=
  (Prog.runWith providerStep faultless (createMachine nodeConfig).run w []).bind fun x =>
    (Prog.runWith providerStep faultless (deleteMachine nodeConfig).run x.2.1 cs).map fun y =>
      (x.2.1, y)

/-- Whether a domain is running, and whether it is defined. -/
def domainState (w : World) : Option (Bool × Bool) :=
  ((w.hosts 0).domains.lookup nodeConfig.domainName).map fun d => (d.active, d.persistent)

theorem createThenDelete_exec {cs : List LibvirtChoice} {w₀ w w' : World}
    {tr : List (Event ProviderSig)} {r : Except GoError Unit}
    (h : createThenDelete w₀ cs = some (w, tr, w', r)) :
    MachineRun nodeConfig w₀ w
    ∧ Prog.Exec providerSem (deleteMachine nodeConfig).run w tr w' r := by
  obtain ⟨⟨tr₁, w₁, r₁⟩, h₁, h⟩ := Option.bind_eq_some_iff.mp h
  obtain ⟨⟨tr₂, w₂, r₂⟩, h₂, heq⟩ := Option.map_eq_some_iff.mp h
  cases heq
  exact ⟨.single (.create (Or.inl rfl) (Prog.exec_of_runWith h₁)), Prog.exec_of_runWith h₂⟩

theorem deleteMachine_clean_nodeConfig : ∃ w tr w', MachineRun nodeConfig stockedWorld w
    ∧ (w.hosts 0).domains.Running nodeConfig.domainName
    ∧ Prog.Exec providerSem (deleteMachine nodeConfig).run w tr w' (.ok ())
    ∧ Clean nodeConfig (w'.hosts 0) := by
  have hrun : (createThenDelete stockedWorld []).map (fun x =>
        (domainState x.1, x.2.1.any failedIsActiveOn, x.2.2.2.isOk))
      = some (some (true, true), false, true) := by decide +kernel
  obtain ⟨⟨w, tr, w', r⟩, hx, hout⟩ := Option.map_eq_some_iff.mp hrun
  obtain ⟨hcreate, he⟩ := createThenDelete_exec hx
  obtain ⟨hstate, hquiet, hok⟩ : domainState w = some (true, true)
      ∧ tr.any failedIsActiveOn = false ∧ r.isOk = true := by simpa using hout
  cases r with
  | error e => cases hok
  | ok _ =>
    obtain ⟨d, hd, hd'⟩ := Option.map_eq_some_iff.mp hstate
    refine ⟨w, tr, w', hcreate, ⟨d, hd, congrArg Prod.fst hd'⟩, he, ?_⟩
    have hhost : stockedWorld.hostOf nodeConfig.uri = some 0 := rfl
    have hentry : ∀ network, (stockedWorld.hosts 0).networks nodeConfig.network = some network →
        ∀ e ∈ network.hosts, foldKey e.mac ≠ foldKey nodeConfig.mac := by
      rintro network ⟨⟩
      simp
    refine (deleteMachine_clean_iff hhost hentry hcreate he).2.2.mpr fun h => ?_
    rw [hquiet] at h
    cases h.2

/-- **A domain is left running.** The machine was created on a host with its
volumes; when it is deleted, `IsActive` fails and `DeleteMachine` returns nil
all the same. The error of `IsActive` is dropped whatever form it has, so that
this is not a matter of what the code recognises. -/
theorem deleteMachine_leaves_domain : ∃ w tr w', MachineRun nodeConfig stockedWorld w
    ∧ Prog.Exec providerSem (deleteMachine nodeConfig).run w tr w' (.ok ())
    ∧ domainState w' = some (true, false) := by
  have hrun : (createThenDelete stockedWorld [faultless, faultless, { fault := some 38 }]).map
      (fun x => (domainState x.2.2.1, x.2.2.2.isOk)) = some (some (true, false), true) := by
    decide +kernel
  obtain ⟨⟨w, tr, w', r⟩, hx, hout⟩ := Option.map_eq_some_iff.mp hrun
  obtain ⟨hcreate, he⟩ := createThenDelete_exec hx
  obtain ⟨hstate, hok⟩ : domainState w' = some (true, false) ∧ r.isOk = true := by simpa using hout
  cases r with
  | error e => cases hok
  | ok _ => exact ⟨w, tr, w', hcreate, he, hstate⟩

end LibvirtProvider

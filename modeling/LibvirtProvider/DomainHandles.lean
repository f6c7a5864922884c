import LibvirtProvider.Provider

/-!
# The domains a machine's operations touch

The provider finds a machine's domain by its name and from then on works on
the handle it was given. What a handle refers to is a matter of the UUID in
it, and nothing compares that with the machine's.

`handleMonitor` says what the operations do with handles: they look a domain
up under the machine's own name, define one with the machine's own name and
UUID, and call nothing on a handle they did not get from one or the other.
From this it follows that the operations stay with the domain of the
machine's UUID as long as the domain of its name, if there is one, has that
UUID (`handles_exec`).
-/

namespace LibvirtProvider

open Interaction

/-! ## Handles -/

namespace LibvirtOp

/-- The handle a call is made on, if it is one of a domain. -/
def handle : LibvirtOp → Option DomainRef
  | .setAutostart dom _ | .create dom | .isActive dom | .destroy dom | .undefine dom
  | .getState dom => some dom
  | _ => none

/-- The calls that have nothing to do with domains. -/
def offDomains : LibvirtOp → Bool
  | .lookupDomainByName _ | .domainDefineXML _ => false
  | o => o.handle.isNone

end LibvirtOp

/-- **The monitor of handles**, of a machine with the given name and UUID. It
remembers which handles were handed out, and allows calls on these only;
whether a handle is of the right domain is left to the host. -/
def handleMonitor (name uuid : String) : Monitor LibvirtSig (Set DomainRef) where
  next q
    | .lookupDomainByName _, r => { dom | dom ∈ q ∨ r = .ok dom }
    | .domainDefineXML _, r => { dom | dom ∈ q ∨ r = .ok dom }
    | _, _ => q
  allows q
    | .lookupDomainByName n => n = name
    | .domainDefineXML xml => xml.name = name ∧ xml.uuid = uuid
    | o => ∀ dom, LibvirtOp.handle o = some dom → dom ∈ q

section Obeys

variable {α : Type} {name uuid : String} {q : Set DomainRef}

theorem handleMonitor_off {o : LibvirtOp} (h : o.offDomains = true) :
    (handleMonitor name uuid).allows q o ∧ ∀ r, (handleMonitor name uuid).next q o r = q := by
  constructor
  · cases o with
    | lookupDomainByName _ | domainDefineXML _ | setAutostart _ _ | create _ | isActive _
    | destroy _ | undefine _ | getState _ => cases h
    | _ => rintro _ ⟨⟩
  · intro r
    cases o with
    | lookupDomainByName _ | domainDefineXML _ => cases h
    | _ => rfl

/-- What has nothing to do with domains is allowed, and teaches nothing. -/
theorem obeys_of_off {p : Prog LibvirtSig α} (h : p.Calls (LibvirtOp.offDomains · = true)) :
    p.Obeys (handleMonitor name uuid) (fun q' _ => q' = q) q :=
  h.obeys (fun _ ho => (handleMonitor_off ho).1) fun _ r ho => (handleMonitor_off ho).2 r

theorem obeys_off_bind {x : LibvirtM α} {β : Type} {f : α → LibvirtM β}
    (h : x.run.Calls (LibvirtOp.offDomains · = true))
    (hf : ∀ a, (f a).run.Obeys (handleMonitor name uuid) (fun _ _ => True) q) :
    (x >>= f).run.Obeys (handleMonitor name uuid) (fun _ _ => True) q := by
  refine Prog.obeys_bind_except.mpr ((obeys_of_off h).mono ?_)
  rintro _ (err | a) rfl
  · trivial
  · exact hf a

/-- Looking the machine's domain up, and going on with what is found. -/
theorem obeys_lookup {β : Type} {f : Except GoError DomainRef → LibvirtM β}
    (herr : ∀ err q', (f (.error err)).run.Obeys (handleMonitor name uuid) (fun _ _ => True) q')
    (hok : ∀ dom q', dom ∈ q' →
      (f (.ok dom)).run.Obeys (handleMonitor name uuid) (fun _ _ => True) q') :
    (ExceptT.lift (Conn.lookupDomainByName name).run >>= f).run.Obeys (handleMonitor name uuid)
      (fun _ _ => True) q := by
  refine Prog.obeys_lift_bind.mpr ⟨rfl, fun r => ?_⟩
  match r with
  | .error err => exact herr err _
  | .ok dom => exact hok dom _ (Or.inr rfl)

theorem getDomainState_obeys :
    (getDomainState name).run.Obeys (handleMonitor name uuid) (fun _ _ => True) q := by
  refine obeys_lookup (fun err q' => ?_) fun dom q' hdom => ?_
  · dsimp only
    split <;> trivial
  · refine Prog.obeys_bind_except.mpr (Prog.obeys_adapt.mpr ⟨?_, fun r => ?_⟩)
    · rintro _ ⟨⟩
      exact hdom
    · cases r <;> trivial

theorem deleteDomain_obeys :
    (deleteDomain name).run.Obeys (handleMonitor name uuid) (fun _ _ => True) q := by
  refine obeys_lookup (fun err q' => ?_) fun dom q' hdom => ?_
  · dsimp only
    split <;> trivial
  have hknown : ∀ x, some dom = some x → x ∈ q' := by
    rintro _ ⟨⟩
    exact hdom
  have hundefine : ∀ context : String, (ExceptT.adapt (GoError.wrap context)
      (Conn.undefine dom)).run.Obeys (handleMonitor name uuid) (fun _ _ => True) q' :=
    fun context => Prog.obeys_adapt.mpr ⟨hknown, fun _ => trivial⟩
  refine Prog.obeys_lift_bind.mpr ⟨hknown, fun active => ?_⟩
  match active with
  | .error err => exact hundefine _
  | .ok false => exact hundefine _
  | .ok true =>
    refine Prog.obeys_bind_except.mpr (Prog.obeys_adapt.mpr ⟨hknown, fun r => ?_⟩)
    match r with
    | .error err => trivial
    | .ok _ => exact hundefine _

theorem startDomain_obeys {cfg : MachineConfig} :
    (startDomain cfg).run.Obeys (handleMonitor cfg.domainName uuid) (fun _ _ => True) q := by
  refine Prog.obeys_bind_except.mpr (Prog.obeys_adapt.mpr ⟨rfl, fun r => ?_⟩)
  match r with
  | .error err => trivial
  | .ok dom =>
    refine Prog.obeys_adapt.mpr ⟨?_, fun r => trivial⟩
    rintro _ ⟨⟩
    exact Or.inr rfl

theorem defineAndStart_obeys {cfg : MachineConfig} {xml : DomainXML} (hname : xml.name = name)
    (huuid : xml.uuid = uuid) :
    (defineAndStart cfg xml).run.Obeys (handleMonitor name uuid) (fun _ _ => True) q := by
  refine Prog.obeys_bind_except.mpr (Prog.obeys_adapt.mpr ⟨⟨hname, huuid⟩, fun r => ?_⟩)
  match r with
  | .error err => trivial
  | .ok dom =>
    -- the handle is known from here on
    have hknown : ∀ x, some dom = some x →
        x ∈ { y | y ∈ q ∨ (.ok dom : Except GoError DomainRef) = .ok y } := by
      rintro _ ⟨⟩
      exact Or.inr rfl
    refine Prog.obeys_bind_except.mpr (Prog.obeys_adapt.mpr ⟨hknown, fun r => ?_⟩)
    match r with
    | .error err => trivial
    | .ok _ => exact Prog.obeys_adapt.mpr ⟨hknown, fun _ => trivial⟩

theorem createDomain_obeys {cfg : MachineConfig} :
    (createDomain cfg).run.Obeys (handleMonitor cfg.domainName cfg.domainUUID)
      (fun _ _ => True) q := by
  have hq : ∀ o : LibvirtOp, o.asksStorage = true → o.offDomains = true := by
    intro o ho
    cases o <;> first | rfl | cases ho
  have hs : ∀ o : LibvirtOp, o.streams = true → o.offDomains = true := by
    intro o ho
    cases o <;> first | rfl | cases ho
  refine obeys_off_bind (.adapt ⟨rfl, fun _ => trivial⟩) fun domainPool =>
    obeys_off_bind (.adapt ⟨rfl, fun _ => trivial⟩) fun basePool =>
    obeys_off_bind (.adapt (createRootDisk_calls hq fun _ _ => rfl)) fun diskPath =>
    obeys_off_bind (.adapt (createISODisk_calls hq (fun _ _ => rfl) hs)) fun cloudISOPath =>
    obeys_off_bind (.adapt ⟨rfl, fun _ => trivial⟩) fun network =>
    obeys_off_bind (onNetwork_calls (fun _ => rfl) _) fun _ => defineAndStart_obeys rfl rfl

theorem deleteResources_obeys {cfg : MachineConfig} :
    (deleteResources cfg).run.Obeys (handleMonitor cfg.domainName uuid) (fun _ _ => True) q := by
  refine Prog.obeys_bind_except.mpr (deleteDomain_obeys.mono ?_)
  rintro q' (err | _) -
  · trivial
  have hvolume : ∀ name, (deleteVolume cfg.domainPool name).run.Calls
      (LibvirtOp.offDomains · = true) :=
    deleteVolume_calls (fun _ => rfl) (fun _ _ => rfl) (fun _ => rfl) _
  refine obeys_off_bind (hvolume _) fun _ => obeys_off_bind (hvolume _) fun _ => ?_
  exact (obeys_of_off (releaseMachineReservation_calls (fun _ => rfl) (fun _ _ _ => rfl)
    cfg)).mono fun _ _ _ => trivial

theorem machineAddressOn_obeys {cfg : MachineConfig} :
    (machineAddressOn cfg).run.Obeys (handleMonitor name uuid) (fun _ _ => True) q :=
  obeys_off_bind (.adapt ⟨rfl, fun _ => trivial⟩) fun _ =>
    (obeys_of_off (onNetwork_calls (fun _ => rfl) _)).mono fun _ _ _ => trivial

end Obeys

/-! ## The UUID of the domain of a name -/

/-- No domain of the name is new: what is there now was there before, with the
same UUID. This is what everything but a definition of that name keeps. -/
def Domains.NoneNew (name : String) (ds ds' : Domains) : Prop :=
  ∀ d', ds'.lookup name = some d' → ∃ d, ds.lookup name = some d ∧ d'.uuid = d.uuid

section NoneNew

variable {ds : Domains} {name : String} {dom : DomainRef} {d d' : Domain}

theorem Domains.NoneNew.rfl : Domains.NoneNew name ds ds := fun d hd => ⟨d, hd, Eq.refl _⟩

theorem noneNew_insert (hget : ds.get dom = some d) (huuid : d'.uuid = d.uuid) :
    Domains.NoneNew name ds (ds.insert dom.name d') := by
  intro x hx
  by_cases hname : name = dom.name
  · subst hname
    cases (AList.lookup_insert ds).symm.trans hx
    exact ⟨d, (Domains.get_eq_some.mp hget).1, huuid⟩
  · rw [AList.lookup_insert_ne hname] at hx
    exact ⟨x, hx, rfl⟩

theorem noneNew_erase {n : String} : Domains.NoneNew name ds (ds.erase n) := by
  intro x hx
  by_cases hname : name = n
  · subst hname
    rw [AList.lookup_erase] at hx
    cases hx
  · rw [AList.lookup_erase_ne hname] at hx
    exact ⟨x, hx, rfl⟩

end NoneNew

section Sem

variable {name : String} {s s' : Host} {o : LibvirtOp} {r : LibvirtSig.Ans o}

theorem Domains.domainDefineXML_cases (ds : Domains) (xml : DomainXML) (fresh : String) :
    (∃ e, ds.domainDefineXML xml fresh = (.error e, ds))
    ∨ ∃ d : Domain, d.uuid = (if xml.uuid = "" then fresh else xml.uuid) ∧ d.persistent = true
      ∧ ds.domainDefineXML xml fresh
        = (.ok ⟨xml.name, if xml.uuid = "" then fresh else xml.uuid⟩, ds.insert xml.name d) := by
  unfold Domains.domainDefineXML
  generalize (if xml.uuid = "" then fresh else xml.uuid) = uuid
  dsimp only
  split
  · exact Or.inl ⟨_, rfl⟩
  split
  · exact Or.inr ⟨_, rfl, rfl, rfl⟩
  split
  · rename_i d _ huuid
    exact Or.inr ⟨{ d with xml := xml, persistent := true }, huuid, rfl, rfl⟩
  · exact Or.inl ⟨_, rfl⟩

/-- Defining a domain is refused and changes nothing, or there is one of the
name with the UUID of the description, where that has one. -/
theorem libvirtSem_domainDefineXML {xml : DomainXML} {r : Except GoError DomainRef}
    (h : libvirtSem s (.domainDefineXML xml) r s') :
    (∃ e, r = .error e) ∧ s' = s
    ∨ ∃ uuid, (xml.uuid ≠ "" → uuid = xml.uuid) ∧ r = .ok ⟨xml.name, uuid⟩
      ∧ ∃ d : Domain, d.uuid = uuid ∧ d.persistent = true
        ∧ s' = { s with domains := s.domains.insert xml.name d } := by
  obtain ⟨c, hc⟩ := h
  rcases LibvirtChoice.exists_answer.mp ⟨c, hc⟩ with ⟨⟨code, rfl⟩, rfl⟩ | ⟨rfl, rfl⟩
  · exact Or.inl ⟨⟨_, rfl⟩, rfl⟩
  rcases s.domains.domainDefineXML_cases xml c.uuid with ⟨e, he⟩ | ⟨d, hd, hp, he⟩
  · rw [Host.onDomains, he]
    exact Or.inl ⟨⟨_, rfl⟩, rfl⟩
  · rw [Host.onDomains, he]
    exact Or.inr ⟨_, fun hx => if_neg hx, rfl, d, hd, hp, rfl⟩

/-- **Defining a new domain**: it is shut off, and does not start with its
host. -/
theorem libvirtSem_domainDefineXML_new {xml : DomainXML} {r : Except GoError DomainRef}
    (hnew : s.domains.lookup xml.name = none) (h : libvirtSem s (.domainDefineXML xml) r s') :
    (∃ e, r = .error e) ∧ s' = s
    ∨ ∃ uuid, r = .ok ⟨xml.name, uuid⟩
      ∧ s' = { s with
        domains := s.domains.insert xml.name ⟨uuid, xml, true, false, .shutoff, false⟩ } := by
  obtain ⟨c, hc⟩ := h
  rcases LibvirtChoice.exists_answer.mp ⟨c, hc⟩ with ⟨⟨code, rfl⟩, rfl⟩ | ⟨rfl, rfl⟩
  · exact Or.inl ⟨⟨_, rfl⟩, rfl⟩
  simp only [Domains.domainDefineXML, hnew, Host.onDomains]
  generalize (if xml.uuid = "" then c.uuid else xml.uuid) = uuid
  by_cases hany : (s.domains.entries.any fun e => e.1 != xml.name && e.2.uuid == uuid) = true
  · simp only [if_pos hany]
    exact Or.inl ⟨⟨_, rfl⟩, trivial⟩
  · simp only [if_neg hany]
    exact Or.inr ⟨uuid, rfl, rfl⟩

/-- A domain is made by defining it only. -/
theorem libvirtSem_noneNew (h : libvirtSem s o r s')
    (ho : ∀ xml, o = .domainDefineXML xml → xml.name ≠ name) :
    s.domains.NoneNew name s'.domains := by
  cases o with
  | domainDefineXML xml =>
    rcases libvirtSem_domainDefineXML h with ⟨-, rfl⟩ | ⟨uuid, -, -, d, -, -, rfl⟩
    · exact .rfl
    · intro x hx
      rw [AList.lookup_insert_ne (ho xml rfl).symm] at hx
      exact ⟨x, hx, rfl⟩
  | setAutostart dom autostart =>
    rcases libvirtSem_setAutostart h with ⟨-, rfl⟩ | ⟨-, d, hd, -, rfl⟩
    · exact .rfl
    · exact noneNew_insert hd rfl
  | create dom =>
    rcases libvirtSem_create h with ⟨-, rfl⟩ | ⟨-, d, hd, -, rfl⟩
    · exact .rfl
    · exact noneNew_insert hd rfl
  | destroy dom =>
    rcases libvirtSem_destroy h with ⟨-, rfl⟩ | ⟨-, d, hd, -, rfl⟩
    · exact .rfl
    · dsimp only
      split
      · exact noneNew_insert hd rfl
      · exact noneNew_erase
  | undefine dom =>
    rcases libvirtSem_undefine h with ⟨-, rfl⟩ | ⟨-, d, hd, -, rfl⟩
    · exact .rfl
    · dsimp only
      split
      · exact noneNew_insert hd rfl
      · exact noneNew_erase
  | _ => exact libvirtSem_domains h rfl ▸ .rfl

theorem libvirtSem_lookupDomainByName_ok {dom : DomainRef}
    (h : libvirtSem s (.lookupDomainByName name) (.ok dom) s') :
    ∃ d, s.domains.lookup name = some d ∧ dom = ⟨name, d.uuid⟩ := by
  rcases LibvirtChoice.exists_answer.mp h with ⟨⟨code, hr⟩, -⟩ | ⟨hr, -⟩
  · cases hr
  · simp only [Domains.lookupDomainByName] at hr
    split at hr <;> cases hr
    rename_i d hd
    exact ⟨d, hd, rfl⟩

end Sem

/-! ## The operations and their handles -/

/-- The domain of the name, if there is one, has the UUID. -/
def Domains.Own (name uuid : String) (ds : Domains) : Prop :=
  ∀ d, ds.lookup name = some d → d.uuid = uuid

theorem Domains.Own.of_noneNew {name uuid : String} {ds ds' : Domains} (h : ds.Own name uuid)
    (hnew : ds.NoneNew name ds') : ds'.Own name uuid := by
  intro d' hd'
  obtain ⟨d, hd, huuid⟩ := hnew d' hd'
  exact huuid.trans (h d hd)

/-- The domain of the name keeps its UUID, where a domain of the name is
defined with it. -/
theorem Domains.Own.step {name uuid : String} {s s' : Host} {o : LibvirtOp}
    {r : LibvirtSig.Ans o} (huuid : uuid ≠ "") (h : s.domains.Own name uuid)
    (ho : ∀ xml, o = .domainDefineXML xml → xml.name = name → xml.uuid = uuid)
    (hs : libvirtSem s o r s') : s'.domains.Own name uuid := by
  by_cases hdefine : ∃ xml, o = .domainDefineXML xml ∧ xml.name = name
  · obtain ⟨xml, rfl, rfl⟩ := hdefine
    have hxml := ho xml rfl rfl
    rcases libvirtSem_domainDefineXML hs with ⟨-, rfl⟩ | ⟨u, hu, -, d, hd, -, rfl⟩
    · exact h
    · intro x hx
      cases (AList.lookup_insert s.domains).symm.trans hx
      exact hd.trans ((hu (hxml ▸ huuid)).trans hxml)
  · exact h.of_noneNew (libvirtSem_noneNew hs fun xml hx hname => hdefine ⟨xml, hx, hname⟩)

/-- What is known of the handles and of the host. With the domain of the name
having the UUID, a lookup can only hand out a handle with it. -/
def Handled (name uuid : String) (q : Set DomainRef) (s : Host) : Prop :=
  (∀ dom ∈ q, dom.uuid = uuid) ∧ s.domains.Own name uuid

section Handled

variable {name uuid : String} {q : Set DomainRef} {s s' : Host}

/-- **Every call of an operation stays with the machine's UUID**, as long as
the monitor allows it. -/
theorem Handled.step (huuid : uuid ≠ "") (h : Handled name uuid q s) {o : LibvirtOp}
    {r : LibvirtSig.Ans o} (ho : (handleMonitor name uuid).allows q o) (hs : libvirtSem s o r s') :
    Handled name uuid ((handleMonitor name uuid).next q o r) s' := by
  refine ⟨?_, h.2.step huuid ?_ hs⟩
  · cases o with
    | lookupDomainByName n =>
      obtain rfl : n = name := ho
      rintro dom (hdom | rfl)
      · exact h.1 dom hdom
      · obtain ⟨d, hd, rfl⟩ := libvirtSem_lookupDomainByName_ok hs
        exact h.2 d hd
    | domainDefineXML xml =>
      rintro dom (hdom | rfl)
      · exact h.1 dom hdom
      · rcases libvirtSem_domainDefineXML hs with ⟨⟨e, he⟩, -⟩ | ⟨u, hu, he, -⟩
        · cases he
        · cases he
          exact (hu (ho.2 ▸ huuid)).trans ho.2
    | _ => exact h.1
  · rintro xml rfl -
    exact ho.2

/-- **A run of an operation stays with the machine's UUID**, where the domain
of its name has it. The condition cannot be left out: the operations never
compare UUIDs. -/
theorem handles_exec {α : Type} (huuid : uuid ≠ "") {p : Prog LibvirtSig α}
    (hp : p.Obeys (handleMonitor name uuid) (fun _ _ => True) ∅) (hown : s.domains.Own name uuid)
    {tr : List (Event LibvirtSig)} {a : α} (he : Prog.Exec libvirtSem p s tr s' a) :
    s'.domains.Own name uuid
    ∧ ∀ ev ∈ tr, ∀ dom, LibvirtOp.handle ev.1 = some dom → dom.uuid = uuid := by
  have hstep : ∀ q s o r s', Handled name uuid q s → (handleMonitor name uuid).allows q o →
      libvirtSem s o r s' → Handled name uuid ((handleMonitor name uuid).next q o r) s' :=
    fun q s o r s' hq ho hs => hq.step huuid ho hs
  have hstart : Handled name uuid ∅ s := ⟨nofun, hown⟩
  constructor
  · obtain ⟨q, hq, -⟩ := hp.exec hstep hstart he
    exact hq.2
  · intro ev hev dom hdom
    obtain ⟨q, t, hq, hallows⟩ := hp.trace hstep hstart he hev
    obtain ⟨o, r⟩ := ev
    cases o with
    | lookupDomainByName _ | domainDefineXML _ => cases hdom
    | _ => exact hq.1 dom (hallows dom hdom)

end Handled

end LibvirtProvider

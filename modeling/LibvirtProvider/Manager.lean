import LibvirtProvider.DomainHandles
import LibvirtProvider.Exits

/-!
# The manager: the controller on the hosts

A reconcile calls the provider, and the provider calls libvirt. Here the two
are put together: the program of a reconcile with every operation of the
provider replaced by what it does (`manage`), over the API server and the
hosts.

A run of it is looked at in two ways. Call by call, where something else may
happen between any two calls; and as a run of the reconcile whose operations
are runs of the provider (`exec_manage`), where one reconcile has the hosts to
itself.
-/

namespace LibvirtProvider

open Interaction

/-! ## The program -/

/-- What the manager calls. -/
inductive ManagerOp where
  | api (o : ApiOp)
  | provider (o : ProviderOp)

/-- The signature of the manager's calls. -/
def ManagerSig : Signature where
  Op := ManagerOp
  Ans
    | .api o => o.Result
    | .provider o => ProviderSig.Ans o

/-- The operations, as `provider.go` has them. -/
def provide : (o : MachineOp) → Prog ProviderSig o.Result
  | .getMachineState cfg => (getMachineState cfg).run
  | .createMachine cfg => (createMachine cfg).run
  | .startMachine cfg => (startMachine cfg).run
  | .deleteMachine cfg => (deleteMachine cfg).run
  | .getMachineAddress cfg => (getMachineAddress cfg).run

/-- What the operations do on the host they are connected to. All statements
about an operation that has got its connection are about this. -/
def provideOn : (o : MachineOp) → Prog LibvirtSig o.Result
  | .getMachineState cfg => (getDomainState cfg.domainName).run
  | .createMachine cfg => (createDomain cfg).run
  | .startMachine cfg => (startDomain cfg).run
  | .deleteMachine cfg => (deleteResources cfg).run
  | .getMachineAddress cfg => (machineAddressOn cfg).run

/-- What a call of the controller is for the manager. -/
def implement : (o : ControllerSig.Op) → Prog ManagerSig (ControllerSig.Ans o)
  | .api o => Prog.perform (σ := ManagerSig) (.api o)
  | .provider o => (provide o).interp fun x => Prog.perform (σ := ManagerSig) (.provider x)

/-- **A reconcile, down to the calls of libvirt.** Nothing is written twice:
it is the program of the controller with the programs of the provider put in
for its operations. -/
def manage : Prog ManagerSig Outcome := reconcile.interp implement

/-! ## The state -/

/-- **What the manager works on**: the API server and the hosts. The two are
never written together, which is what all results about a machine's life have
to cope with. -/
structure Management where
  api : ApiState
  world : World

/-- What the environment decides about a call. -/
structure ManagementChoice where
  api : ApiChoice := {}
  libvirt : LibvirtChoice := {}

/-- **The calls of the manager.** Each concerns one of the two sides and
leaves the other as it is. -/
def managerStep (s : Management) :
    (o : ManagerSig.Op) → ManagementChoice → Option (ManagerSig.Ans o × Management)
  | .api o, c => (apiStep s.api o c.api).map fun r => (r.1, { s with api := r.2 })
  | .provider o, c => (providerStep s.world o c.libvirt).map fun r => (r.1, { s with world := r.2 })

/-- What the calls mean, over every choice of the environment. -/
def managerSem : Sem ManagerSig Management := Prog.semOf managerStep

section Exec

variable {s s' : Management}

theorem managerSem_api {o : ApiOp} {r : o.Result} :
    managerSem s (.api o) r s' ↔ ∃ a, apiSem s.api o r a ∧ s' = { s with api := a } := by
  constructor
  · rintro ⟨c, hc⟩
    obtain ⟨⟨r', a⟩, ha, heq⟩ := Option.map_eq_some_iff.mp hc
    cases heq
    exact ⟨a, ⟨_, ha⟩, rfl⟩
  · rintro ⟨a, ⟨c, hc⟩, rfl⟩
    exact ⟨{ api := c }, Option.map_eq_some_iff.mpr ⟨(r, a), hc, rfl⟩⟩

theorem managerSem_provider {o : ProviderOp} {r : ProviderSig.Ans o} :
    managerSem s (.provider o) r s' ↔
      ∃ w, providerSem s.world o r w ∧ s' = { s with world := w } := by
  constructor
  · rintro ⟨c, hc⟩
    obtain ⟨⟨r', w⟩, hw, heq⟩ := Option.map_eq_some_iff.mp hc
    cases heq
    exact ⟨w, ⟨_, hw⟩, rfl⟩
  · rintro ⟨w, ⟨c, hc⟩, rfl⟩
    exact ⟨{ libvirt := c }, Option.map_eq_some_iff.mpr ⟨(r, w), hc, rfl⟩⟩

/-- No call changes how errors of a host come. -/
theorem managerSem_errors {o : ManagerSig.Op} {r : ManagerSig.Ans o} (h : managerSem s o r s')
    (host : ℕ) : (s'.world.hosts host).errors = (s.world.hosts host).errors := by
  cases o with
  | api o =>
    obtain ⟨a, -, rfl⟩ := managerSem_api.mp h
    rfl
  | provider o =>
    obtain ⟨w, hw, rfl⟩ := managerSem_provider.mp h
    exact providerSem_errors hw host

/-- A call of the provider, as a call of the manager. -/
def managerEvent (ev : Event ProviderSig) : Event ManagerSig := ⟨.provider ev.1, ev.2⟩

/-- **A run of the provider within the manager is a run on the hosts**, and
the API server is as it was. -/
theorem exec_provider {α : Type} {p : Prog ProviderSig α} {tr : List (Event ManagerSig)} {a : α} :
    Prog.Exec managerSem
        (p.interp fun o => Prog.perform (σ := ManagerSig) (.provider o)) s tr s' a ↔
      ∃ tr' w, Prog.Exec providerSem p s.world tr' w a ∧ tr = tr'.map managerEvent
        ∧ s' = { s with world := w } := by
  refine Prog.exec_interp_part (fun s : Management => s.world) (fun s w => { s with world := w })
    (fun _ _ => rfl) (fun _ _ _ => rfl) (fun _ => rfl) ?_
  intro s o r tr s'
  constructor
  · intro h
    obtain ⟨hs, rfl⟩ := Prog.exec_perform.mp h
    obtain ⟨w, hw, rfl⟩ := managerSem_provider.mp hs
    exact ⟨w, hw, rfl, rfl⟩
  · rintro ⟨w, hw, rfl, rfl⟩
    exact Prog.exec_perform.mpr ⟨managerSem_provider.mpr ⟨w, hw, rfl⟩, rfl⟩

/-- What the calls of the controller mean on the hosts, each of them run to
its end. -/
def controllerSem : Sem ControllerSig Management := Prog.semVia implement managerSem

theorem controllerSem_api {o : ApiOp} {r : o.Result} :
    controllerSem s (.api o) r s' ↔ ∃ a, apiSem s.api o r a ∧ s' = { s with api := a } := by
  refine Iff.trans ⟨fun ⟨tr, h⟩ => (Prog.exec_perform.mp h).1, fun h => ?_⟩ managerSem_api
  exact ⟨_, Prog.exec_perform.mpr ⟨h, rfl⟩⟩

theorem controllerSem_provider {o : MachineOp} {r : o.Result} :
    controllerSem s (.provider o) r s' ↔
      ∃ tr w, Prog.Exec providerSem (provide o) s.world tr w r ∧ s' = { s with world := w } := by
  constructor
  · rintro ⟨tr, h⟩
    obtain ⟨tr', w, hw, -, rfl⟩ := exec_provider.mp h
    exact ⟨tr', w, hw, rfl⟩
  · rintro ⟨tr, w, hw, rfl⟩
    exact ⟨_, exec_provider.mpr ⟨tr, w, hw, rfl, rfl⟩⟩

/-- **A reconcile of the manager is a reconcile whose operations are runs of
the provider.** With this a result about the controller and results about the
operations are put together, without looking at single calls of libvirt. -/
theorem exec_manage {outcome : Outcome} :
    (∃ tr, Prog.Exec managerSem manage s tr s' outcome) ↔
      ∃ tr, Prog.Exec controllerSem reconcile s tr s' outcome :=
  Prog.exec_interp

end Exec

/-! ### Putting a run together -/

section Build

variable {α : Type} {s s' : Management} {b : α} {tr : List (Event ManagerSig)}

theorem exec_request {o : ApiOp} {r : o.Result} {a : ApiState} {k : o.Result → ControllerM α}
    (hs : apiSem s.api o r a)
    (h : Prog.Exec managerSem ((k r).interp implement) { s with api := a } tr s' b) :
    Prog.Exec managerSem ((api o >>= k).interp implement) s (⟨.api o, r⟩ :: tr) s' b :=
  Prog.exec_bind.mpr ⟨r, _, [_], tr, rfl,
    Prog.exec_perform.mpr ⟨managerSem_api.mpr ⟨a, hs, rfl⟩, rfl⟩, h⟩

theorem exec_operation {o : MachineOp} {r : o.Result} {w : World} {tr₁ : List (Event ProviderSig)}
    {k : o.Result → ControllerM α} (h₁ : Prog.Exec providerSem (provide o) s.world tr₁ w r)
    (h : Prog.Exec managerSem ((k r).interp implement) { s with world := w } tr s' b) :
    Prog.Exec managerSem ((provider o >>= k).interp implement) s
      (tr₁.map managerEvent ++ tr) s' b :=
  Prog.exec_bind.mpr ⟨r, _, _, tr, rfl, exec_provider.mpr ⟨tr₁, w, h₁, rfl, rfl⟩, h⟩

/-- **A reconcile of an object that is being deleted**, where deleting the
machine fails: the hosts are what the deletion left, and the object is as it
was. -/
theorem exec_manage_of_delete {m : LibvirtMachine} {c : LibvirtCluster}
    (hm : s.api.machine = some m) (hc : s.api.libvirtCluster = some c)
    (hdel : m.deletionTimestamp = true) {tr₁ : List (Event ProviderSig)} {w : World} {e : GoError}
    (h : Prog.Exec providerSem (deleteMachine (newMachineConfig m c)).run s.world tr₁ w
      (.error e)) :
    ∃ tr outcome, Prog.Exec managerSem manage s tr { s with world := w } outcome
      ∧ ∀ ev ∈ tr₁, managerEvent ev ∈ tr := by
  have hread : apiSem s.api .getLibvirtMachine (.ok m : Except ApiError LibvirtMachine) s.api :=
    ⟨{}, by simp only [apiStep, ApiChoice.find, hm]; rfl⟩
  have hcluster (key : NamespacedName) :
      apiSem s.api (.getLibvirtCluster key) (.ok c : Except GoError LibvirtCluster) s.api :=
    ⟨{}, by simp only [apiStep, ApiChoice.find, hc]; rfl⟩
  let owner : Machine := ⟨"", "", none⟩
  let cluster : Cluster := ⟨"", "", "", none, none⟩
  have howner : apiSem s.api (.getOwnerMachine m)
      (.ok (some owner) : Except GoError (Option Machine)) s.api :=
    ⟨{ ownerMachine := some owner }, rfl⟩
  have hmetadata : apiSem s.api (.getClusterFromMetadata owner)
      (.ok (some cluster) : Except GoError (Option Cluster)) s.api :=
    ⟨{ ownerCluster := some cluster }, rfl⟩
  have hcredentials : apiSem s.api (.loadCredentials c)
      (.ok none : Except GoError (Option Credentials)) s.api := ⟨{}, rfl⟩
  have hhelper : apiSem s.api .newHelper (.ok () : Except GoError Unit) s.api := ⟨{}, rfl⟩
  have hdelete : ∃ tr, Prog.Exec managerSem ((reconcileMachine m).interp implement) s tr
      { s with world := w } (m, { err := some e }) ∧ ∀ ev ∈ tr₁, managerEvent ev ∈ tr := by
    refine ⟨_ :: _ :: _ :: _ :: (tr₁.map managerEvent ++ []), exec_request howner
      (exec_request hmetadata (exec_request (hcluster _) (exec_request hcredentials ?_))), ?_⟩
    · dsimp only
      rw [if_pos hdel]
      exact exec_operation (o := .deleteMachine (newMachineConfig m c)) h ⟨rfl, rfl, rfl⟩
    · intro ev hev
      simp only [List.mem_cons, List.mem_append, List.mem_map]
      exact Or.inr (Or.inr (Or.inr (Or.inr (Or.inl ⟨ev, hev, rfl⟩))))
  obtain ⟨tr, hexec, hev⟩ := hdelete
  refine ⟨_ :: _ :: tr, { err := some e }, exec_request hread (exec_request hhelper ?_), ?_⟩
  · rw [Prog.interp_bind]
    refine Prog.exec_bind.mpr ⟨_, _, tr, [], (List.append_nil tr).symm, hexec, ?_⟩
    -- the object is as it was, so that there is nothing to patch
    dsimp only
    rw [helperPatch_self]
    exact ⟨rfl, rfl, rfl⟩
  · intro ev h
    exact List.mem_cons_of_mem _ (List.mem_cons_of_mem _ (hev ev h))

end Build

/-! ## The operations -/

/-- An operation failed. -/
def MachineOp.Fails : (o : MachineOp) → o.Result → Prop
  | .getMachineState _, r => ∃ e, r = .error e
  | .createMachine _, r => ∃ e, r = .error e
  | .startMachine _, r => ∃ e, r = .error e
  | .deleteMachine _, r => ∃ e, r = .error e
  | .getMachineAddress _, r => ∃ e, r = .error e

/-- **What an answer says of the domain**, which is there or is not. A failed
operation says nothing, and neither does a deletion, which may leave the
domain running. -/
def MachineOp.Shows : (o : MachineOp) → o.Result → Bool → Prop
  | .getMachineState _, r, present => ∀ state, r = .ok state → (present = true ↔ state ≠ .notFound)
  | .createMachine _, r, present => r = .ok () → present = true
  | .startMachine _, r, present => r = .ok () → present = true
  | .deleteMachine _, _, _ => True
  | .getMachineAddress _, _, _ => True

/-- A domain of the name is there. -/
def Host.present (s : Host) (name : String) : Bool := (s.domains.lookup name).isSome

section Answers

variable {cfg : MachineConfig} {s s' : Host} {tr : List (Event LibvirtSig)}

theorem MachineOp.Fails.shows {o : MachineOp} {r : o.Result} (h : o.Fails r) (present : Bool) :
    o.Shows r present := by
  cases o with
  | getMachineState cfg =>
    obtain ⟨e, rfl⟩ := h
    exact fun _ h => nomatch h
  | createMachine cfg | startMachine cfg =>
    obtain ⟨e, rfl⟩ := h
    exact fun h => nomatch h
  | deleteMachine cfg | getMachineAddress cfg => trivial

/-- **A run of `getDomainState`** changes nothing. -/
theorem getDomainState_exec {r : Except GoError DomainState}
    (h : Prog.Exec libvirtSem (getDomainState cfg.domainName).run s tr s' r) : s' = s := by
  have hcalls :
      (getDomainState cfg.domainName).run.Calls fun o : LibvirtOp => o.isQuery = true := by
    refine .lift_bind ⟨rfl, fun _ => trivial⟩ fun found => ?_
    cases found with
    | error err =>
      dsimp only
      split <;> trivial
    | ok dom => exact .bind_except (.adapt ⟨rfl, fun _ => trivial⟩) fun _ => trivial
  exact hcalls.keeps id (fun _ _ _ _ ho hs => libvirtSem_query hs ho) h

/-- **A run of `startDomain`**: it fails and changes nothing, or the domain of
the name is running. Starting one that runs already is refused by libvirt, and
so an error. -/
theorem startDomain_exec {r : Except GoError Unit}
    (h : Prog.Exec libvirtSem (startDomain cfg).run s tr s' r) :
    (∃ e, r = .error e) ∧ s' = s
    ∨ r = .ok () ∧ ∃ d, s.domains.lookup cfg.domainName = some d ∧ s' = { s with
        domains := s.domains.insert cfg.domainName
          { d with active := true, state := .running } } := by
  rcases Prog.exec_bind_except.mp h with ⟨e, hx, rfl⟩ | ⟨dom, s₁, _, tr₁, rfl, hx, h₁⟩
  · obtain ⟨r', hx, -⟩ := Prog.exec_adapt.mp hx
    exact Or.inl ⟨⟨e, rfl⟩, libvirtSem_query (Prog.exec_perform.mp hx).1 rfl⟩
  obtain ⟨hs, rfl⟩ := Prog.exec_perform.mp (Prog.exec_adapt_ok.mp hx)
  obtain rfl := libvirtSem_query hs rfl
  obtain ⟨_, -, rfl⟩ := libvirtSem_lookupDomainByName_ok hs
  obtain ⟨r', hx, rfl⟩ := Prog.exec_adapt.mp h₁
  rcases libvirtSem_create (Prog.exec_perform.mp hx).1 with ⟨⟨e, rfl⟩, rfl⟩ | ⟨rfl, d, hd, -, rfl⟩
  · exact Or.inl ⟨⟨_, rfl⟩, rfl⟩
  · exact Or.inr ⟨rfl, d, (Domains.get_eq_some.mp hd).1, rfl⟩

/-! What an answer says is right at the end of the operation, whatever happens
on the host before each call. -/

section Disturbed

variable {E : Host → Host → Prop}

theorem getDomainState_shows {state : DomainState}
    (h : Prog.Exec (Prog.disturbed E libvirtSem) (getDomainState cfg.domainName).run s tr s'
      (.ok state)) : s'.present cfg.domainName = true ↔ state ≠ .notFound := by
  obtain ⟨found, s₁, _, tr₁, rfl, hx, h₁⟩ := Prog.exec_lift_bind.mp h
  obtain ⟨⟨t, -, hs⟩, rfl⟩ := Prog.exec_perform.mp hx
  obtain rfl := libvirtSem_query hs rfl
  match found with
  | .ok dom =>
    obtain ⟨d₀, -, rfl⟩ := libvirtSem_lookupDomainByName_ok hs
    obtain ⟨st, s₂, _, _, -, hx, -, rfl, hr⟩ := Prog.exec_bind_ok.mp h₁
    obtain ⟨⟨t, -, hs⟩, -⟩ := Prog.exec_perform.mp (Prog.exec_adapt_ok.mp hx)
    obtain rfl := libvirtSem_query hs rfl
    cases hr
    refine iff_of_true ?_ (by cases st <;> exact fun h => nomatch h)
    -- the domain has a state, so it is still there
    cases hd : s'.domains.get ⟨cfg.domainName, d₀.uuid⟩ with
    | some d => exact Option.isSome_of_eq_some (Domains.get_eq_some.mp hd).1
    | none =>
      rcases LibvirtChoice.exists_answer.mp hs with ⟨⟨code, hr⟩, -⟩ | ⟨hr, -⟩
      · cases hr
      · simp [Domains.getState, hd, Except.mapError] at hr
  | .error err =>
    dsimp only at h₁
    split at h₁
    · rename_i hcode
      obtain ⟨-, rfl, hr⟩ := h₁
      cases hr
      refine iff_of_false (fun hpresent => ?_) (fun h => h rfl)
      obtain ⟨d, hd⟩ := Option.isSome_iff_exists.mp hpresent
      rcases LibvirtChoice.exists_answer.mp hs with ⟨⟨code, hr⟩, -⟩ | ⟨hr, -⟩
      · cases hr
        simp at hcode
      · simp [Domains.lookupDomainByName, hd, Except.mapError] at hr
    · cases h₁.2.2

/-- **That a domain is not there is answered only where errors are
recognised.** So with errors by value the controller is never told to create a
machine. -/
theorem getDomainState_pointer
    (h : Prog.Exec (Prog.disturbed E libvirtSem) (getDomainState cfg.domainName).run s tr s'
      (.ok .notFound)) : s'.errors = .pointer := by
  obtain ⟨found, s₁, _, tr₁, rfl, hx, h₁⟩ := Prog.exec_lift_bind.mp h
  obtain ⟨⟨t, -, hs⟩, rfl⟩ := Prog.exec_perform.mp hx
  obtain rfl := libvirtSem_query hs rfl
  cases found with
  | ok dom =>
    obtain ⟨st, s₂, _, _, -, -, -, -, hr⟩ := Prog.exec_bind_ok.mp h₁
    cases st <;> cases hr
  | error err =>
    obtain ⟨hcode, -, rfl, -⟩ := Prog.exec_excused_ok.mp h₁
    rcases LibvirtChoice.exists_answer.mp hs with ⟨⟨code, hr⟩, -⟩ | ⟨hr, -⟩
    · cases hr
      simp at hcode
    · unfold Domains.lookupDomainByName at hr
      split at hr
      · cases hr
        simpa using hcode
      · cases hr

theorem create_present {dom : DomainRef}
    (h : Prog.Exec (Prog.disturbed E libvirtSem) (Conn.create dom).run s tr s' (.ok ())) :
    s'.present dom.name = true := by
  obtain ⟨⟨t, -, hs⟩, -⟩ := Prog.exec_perform.mp h
  rcases libvirtSem_create hs with ⟨⟨e, hr⟩, -⟩ | ⟨-, d, -, -, rfl⟩
  · cases hr
  · exact Option.isSome_of_eq_some (AList.lookup_insert _)

theorem startDomain_present
    (h : Prog.Exec (Prog.disturbed E libvirtSem) (startDomain cfg).run s tr s' (.ok ())) :
    s'.present cfg.domainName = true := by
  obtain ⟨dom, s₁, _, _, -, hx, h⟩ := Prog.exec_bind_ok.mp h
  obtain ⟨⟨t, -, hs⟩, -⟩ := Prog.exec_perform.mp (Prog.exec_adapt_ok.mp hx)
  obtain ⟨_, -, rfl⟩ := libvirtSem_lookupDomainByName_ok hs
  exact create_present (Prog.exec_adapt_ok.mp h)

theorem createDomain_present
    (h : Prog.Exec (Prog.disturbed E libvirtSem) (createDomain cfg).run s tr s' (.ok ())) :
    s'.present cfg.domainName = true := by
  obtain ⟨_, s₁, _, _, -, -, h⟩ := Prog.exec_bind_ok.mp h
  obtain ⟨_, s₂, _, _, -, -, h⟩ := Prog.exec_bind_ok.mp h
  obtain ⟨diskPath, s₃, _, _, -, -, h⟩ := Prog.exec_bind_ok.mp h
  obtain ⟨isoPath, s₄, _, _, -, -, h⟩ := Prog.exec_bind_ok.mp h
  obtain ⟨_, s₅, _, _, -, -, h⟩ := Prog.exec_bind_ok.mp h
  obtain ⟨_, s₆, _, _, -, -, h⟩ := Prog.exec_bind_ok.mp h
  obtain ⟨dom, s₇, _, _, -, hx, h⟩ := Prog.exec_bind_ok.mp h
  obtain ⟨_, s₈, _, _, -, -, h⟩ := Prog.exec_bind_ok.mp h
  -- the handle that is started is the one that was defined
  obtain ⟨⟨t, -, hs⟩, -⟩ := Prog.exec_perform.mp (Prog.exec_adapt_ok.mp hx)
  rcases libvirtSem_domainDefineXML hs with ⟨⟨e, hr⟩, -⟩ | ⟨uuid, -, hr, -⟩
  · cases hr
  cases hr
  exact create_present (Prog.exec_adapt_ok.mp h)

/-- **The answers are right**, once there is a connection, at the end of the
operation; also where the host changes in other ways before each of its calls. -/
theorem provideOn_shows {o : MachineOp} {r : o.Result}
    (h : Prog.Exec (Prog.disturbed E libvirtSem) (provideOn o) s tr s' r) :
    o.Shows r (s'.present o.cfg.domainName) := by
  cases o with
  | getMachineState cfg =>
    rintro state rfl
    exact getDomainState_shows h
  | createMachine cfg =>
    rintro rfl
    exact createDomain_present h
  | startMachine cfg =>
    rintro rfl
    exact startDomain_present h
  | deleteMachine cfg | getMachineAddress cfg => trivial

end Disturbed

end Answers

/-! ### What is taken away -/

/-- The calls that take something away. -/
def LibvirtOp.removes : LibvirtOp → Bool
  | .destroy _ | .undefine _ | .deleteVol _ _ => true
  | _ => false

/-- **A domain stays**, unless it is taken away. -/
theorem libvirtSem_present {s s' : Host} {o : LibvirtOp} {r : LibvirtSig.Ans o} {name : String}
    (h : libvirtSem s o r s') (ho : o.removes = false) (hp : s.present name = true) :
    s'.present name = true := by
  have hinsert (n : String) (d : Domain) :
      ({ s with domains := s.domains.insert n d } : Host).present name = true := by
    by_cases hn : name = n
    · rw [hn]
      exact Option.isSome_of_eq_some (AList.lookup_insert _)
    · rw [Host.present, AList.lookup_insert_ne hn]
      exact hp
  cases o with
  | domainDefineXML xml =>
    rcases libvirtSem_domainDefineXML h with ⟨-, rfl⟩ | ⟨_, -, -, d, -, -, rfl⟩
    · exact hp
    · exact hinsert _ d
  | setAutostart dom autostart =>
    rcases libvirtSem_setAutostart h with ⟨-, rfl⟩ | ⟨-, d, -, -, rfl⟩
    · exact hp
    · exact hinsert _ _
  | create dom =>
    rcases libvirtSem_create h with ⟨-, rfl⟩ | ⟨-, d, -, -, rfl⟩
    · exact hp
    · exact hinsert _ _
  | destroy dom | undefine dom => cases ho
  | _ =>
    rw [Host.present, libvirtSem_domains h rfl]
    exact hp

/-- **Only a deletion takes something away.** Creating and starting a machine
leave everything of a failed attempt where it is. -/
theorem provideOn_removes {o : MachineOp} (hdelete : ∀ cfg, o ≠ .deleteMachine cfg) :
    (provideOn o).Calls fun x : LibvirtOp => x.removes = false := by
  have hq (x : LibvirtOp) (hx : x.asksStorage = true) : x.removes = false := by
    cases x <;> first | rfl | cases hx
  cases o with
  | getMachineState cfg =>
    refine .lift_bind ⟨rfl, fun _ => trivial⟩ fun found => ?_
    cases found with
    | error err =>
      dsimp only
      split <;> trivial
    | ok dom => exact .bind_except (.adapt ⟨rfl, fun _ => trivial⟩) fun _ => trivial
  | createMachine cfg =>
    refine .bind_except (.adapt ⟨rfl, fun _ => trivial⟩) fun domainPool =>
      .bind_except (.adapt ⟨rfl, fun _ => trivial⟩) fun basePool =>
      .bind_except (.adapt (createRootDisk_calls hq fun _ _ => rfl)) fun diskPath =>
      .bind_except (.adapt (createISODisk_calls hq (fun _ _ => rfl) fun x hx => ?_)) fun isoPath =>
      .bind_except (.adapt ⟨rfl, fun _ => trivial⟩) fun network =>
      .bind_except (onNetwork_calls (fun _ => rfl) _) fun _ =>
      defineAndStart_calls rfl (fun _ => rfl) fun _ => rfl
    cases x <;> first | rfl | cases hx
  | startMachine cfg =>
    exact .bind_except (.adapt ⟨rfl, fun _ => trivial⟩) fun _ => .adapt ⟨rfl, fun _ => trivial⟩
  | deleteMachine cfg => exact absurd rfl (hdelete cfg)
  | getMachineAddress cfg =>
    exact .bind_except (.adapt ⟨rfl, fun _ => trivial⟩) fun _ => onNetwork_calls (fun _ => rfl) _

section Provide

variable {w w' : World} {o : MachineOp}

/-- **A run of an operation**: there is no connection and nothing happens, or
it is a run on the host the URI leads to. -/
theorem provide_exec {tr : List (Event ProviderSig)} {r : o.Result}
    (h : Prog.Exec providerSem (provide o) w tr w' r) :
    w' = w ∧ (∃ e, tr = [⟨.connect o.cfg.toInfraConfig, (.error e : Except GoError ConnRef)⟩])
      ∧ o.Fails r
    ∨ ∃ host tr' s', w.hostOf o.cfg.uri = some host
      ∧ Prog.Exec libvirtSem (provideOn o) (w.hosts host) tr' s' r
      ∧ tr = ⟨.connect o.cfg.toInfraConfig, (.ok ⟨host⟩ : Except GoError ConnRef)⟩
          :: tr'.map (ConnRef.event ⟨host⟩)
      ∧ w' = w.setHost host s' := by
  cases o <;> exact (connected_exec h).imp_left fun ⟨hr, hw, htr⟩ => ⟨hw, htr, hr⟩

/-- The operations work on handles of the machine's own. -/
theorem provideOn_obeys (o : MachineOp) :
    (provideOn o).Obeys (handleMonitor o.cfg.domainName o.cfg.domainUUID) (fun _ _ => True) ∅ := by
  cases o with
  | getMachineState cfg => exact getDomainState_obeys
  | createMachine cfg => exact createDomain_obeys
  | startMachine cfg => exact startDomain_obeys
  | deleteMachine cfg => exact deleteResources_obeys
  | getMachineAddress cfg => exact machineAddressOn_obeys

/-- The operations define the machine's own domain only. -/
theorem provide_calls {P : ProviderSig.Op → Prop} (hconnect : ∀ c, P (.connect c))
    (hlibvirt : ∀ conn x, (∀ xml, x = .domainDefineXML xml →
      xml.name = o.cfg.domainName ∧ xml.uuid = o.cfg.domainUUID) → P (.libvirt conn x)) :
    (provide o).Calls P := by
  have hcalls (conn : ConnRef) : (provideOn o).Calls fun x => P (.libvirt conn x) := by
    refine (provideOn_obeys o).calls fun q x hx => hlibvirt conn x ?_
    rintro xml rfl
    exact hx
  cases o <;> exact connected_calls (hconnect _) hcalls

end Provide

/-! ## A manager to run -/

/-- A machine that is new, and an empty host. -/
def sampleManagement : Management := ⟨⟨some sampleMachine, some sampleCluster⟩, freshWorld⟩

/-- The configuration of the machine. -/
def sampleConfig : MachineConfig := newMachineConfig sampleMachine sampleCluster

/-- A host that has everything of the machine, with the domain shut off. A
manager whose binding returns errors by value does not get there from an empty
host; it can take over a host that is so. -/
def homeHost : Host :=
  let host := freshHost.stock sampleConfig [1, 2, 3]
  { host with
    domains := host.domains.insert sampleConfig.domainName
      ⟨sampleConfig.domainUUID, machineDomain sampleConfig
        ("/vms/" ++ sampleConfig.domainDiskName) ("/vms/" ++ sampleConfig.isoDiskName),
        true, false, .shutoff, true⟩
    networks := Function.update host.networks "default" (some (rangeNetwork "192.168.122.9"
      [⟨sampleConfig.mac, sampleConfig.domainName, "192.168.122.9"⟩])) }

/-- The machine, and that host. -/
def homeManagement : Management where
  api := ⟨some sampleMachine, some sampleCluster⟩
  world := ⟨fun _ => some 0, fun _ => homeHost⟩

/-- The machine and an empty host, with a binding that hands over
`*libvirt.Error`. -/
def pointerManagement : Management :=
  ⟨⟨some sampleMachine, some sampleCluster⟩, pointerWorld⟩

/-- What the calls answer when all goes well. -/
def calm : ManagementChoice := { api := sampleAnswers, libvirt := faultless }

/-- What they answer when nothing works. -/
def outage : ManagementChoice :=
  { api := { sampleAnswers with fault := some "timeout" }, libvirt := { fault := some 38 } }

/-- The state after a reconcile on the given choices, and all goes well from
then on. -/
def reconcileOn (cs : List ManagementChoice) (s : Management) : Option Management :=
  (Prog.runWith managerStep calm manage s cs).map fun r => r.2.1

theorem exec_of_reconcileOn {cs : List ManagementChoice} {s s' : Management}
    (h : reconcileOn cs s = some s') :
    ∃ tr outcome, Prog.Exec managerSem manage s tr s' outcome := by
  obtain ⟨⟨tr, s₁, outcome⟩, hr, rfl⟩ := Option.map_eq_some_iff.mp h
  exact ⟨tr, outcome, Prog.exec_of_runWith hr⟩

end LibvirtProvider

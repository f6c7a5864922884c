import LibvirtProvider.Api
import LibvirtProvider.Provider

/-!
# The infrastructure a cluster refers to

The model of `infra.go`, of `EnsureInfra` in `provider.go` and of
`getInfraError`. The network and the two storage pools that a cluster names
are not created by the provider; it checks that they are there and active, one
after the other, and says in a condition what is wrong with the first that is
not.

A host is looked at here only as far as that goes: which networks and storage
pools it has, and which of them are active. What is assumed of libvirt is that
a lookup by name of something that is not there fails with the code of its
kind.

What `EnsureInfra` is for is said by `Classified`. What it computes is
`ensured`, and the two differ where the first resource that is not fine does
not exist.
-/

namespace LibvirtProvider

open Interaction

/-! ## Errors -/

/-- `InfraKindStoragePool` and `InfraKindNetwork`. -/
inductive InfraKind where
  | storagePool
  | network
  deriving DecidableEq, Repr

namespace InfraKind

/-- The kind, in an error. -/
def text : InfraKind → String
  | .storagePool => "storagePool"
  | .network => "network"

/-- The kind, in the text of a failed lookup. -/
def lookupText : InfraKind → String
  | .storagePool => "storage-pool"
  | .network => "network"

/-- The kind, in the text of a failed check. -/
def checkText : InfraKind → String
  | .storagePool => "storage pool"
  | .network => "network"

/-- The code of a lookup that finds nothing. -/
def notFound : InfraKind → ErrorNumber
  | .storagePool => .noStoragePool
  | .network => .noNetwork

end InfraKind

/-- **The errors of `EnsureInfra`**: `ErrInfraMissing`, `ErrInfraInactive`, or
one that is neither and wraps neither. -/
inductive InfraError where
  | missing (kind : InfraKind) (name : String)
  | inactive (kind : InfraKind) (name : String)
  | other (err : GoError)
  deriving DecidableEq, Repr

/-- `getInfraError`. -/
def getInfraError : InfraError → ConditionReason
  | .missing _ _ => .infrastructureMissing
  | .inactive _ _ => .infrastructureInactive
  | .other _ => .infrastructureProvisioningFailed

/-! ## The calls -/

/-- `*libvirt.StoragePool` or `*libvirt.Network`. -/
structure InfraRef where
  kind : InfraKind
  name : String
  deriving DecidableEq, Repr

/-- What `EnsureInfra` calls: `connect`, `LookupNetworkByName` or
`LookupStoragePoolByName`, and `IsActive` of what they return. -/
inductive InfraOp where
  | connect (cfg : InfraConfig)
  | lookupByName (conn : ConnRef) (kind : InfraKind) (name : String)
  | isActive (conn : ConnRef) (ref : InfraRef)

/-- The signature of these calls. -/
def InfraSig : Signature where
  Op := InfraOp
  Ans
    | .connect _ => Except GoError ConnRef
    | .lookupByName _ _ _ => Except GoError InfraRef
    | .isActive _ _ => Except GoError Bool

/-- **A host**, as far as `EnsureInfra` looks at it: for each network and
storage pool that exists, whether it is active. -/
structure InfraHost where
  status : InfraKind → String → Option Bool

/-- The hosts, and which of them a URI leads to. -/
structure InfraWorld where
  hostOf : String → Option ℕ
  hosts : ℕ → InfraHost

/-- **The calls on the hosts.** Nothing is changed by them. A failure comes
with a code of its own; that something does not exist is said where it is so,
and comes by value like every error of the binding. -/
def infraStep (w : InfraWorld) :
    (o : InfraSig.Op) → Option ℕ → Option (InfraSig.Ans o × InfraWorld)
  | .connect _, some code => some (.error (.wrap "connect to libvirt" (.libvirt (.other code))), w)
  | .connect cfg, none =>
    match w.hostOf cfg.uri with
    | none => some (.error (.wrap "connect to libvirt" (.libvirt (.other 38))), w)
    | some host => some (.ok ⟨host⟩, w)
  | .lookupByName _ _ _, some code => some (.error (.libvirt (.other code)), w)
  | .lookupByName conn kind name, none =>
    match (w.hosts conn.host).status kind name with
    | none => some (.error (.libvirt kind.notFound), w)
    | some _ => some (.ok ⟨kind, name⟩, w)
  | .isActive _ _, some code => some (.error (.libvirt (.other code)), w)
  | .isActive conn ref, none =>
    match (w.hosts conn.host).status ref.kind ref.name with
    | none => some (.error (.libvirt ref.kind.notFound), w)
    | some active => some (.ok active, w)

/-- What the calls mean when no call fails for a reason of its own. -/
def infraSem : Sem InfraSig InfraWorld := fun w o r w' => infraStep w o none = some (r, w')

/-! ## The checks -/

/-- A program of these calls that can fail. -/
abbrev InfraM (α : Type) := ExceptT InfraError (Prog InfraSig) α

/-- `infraCheckError`. -/
def infraCheckError (kind : InfraKind) (name : String) (exists' active : Bool) :
    Except InfraError Unit :=
  if !exists' then .error (.missing kind name)
  else if !active then .error (.inactive kind name)
  else .ok ()

/-- What `networkExists` and `storagePoolExists` do. A lookup that fails is
taken for an answer if its error is recognised, and passed on otherwise. -/
def resourceExists (conn : ConnRef) (kind : InfraKind) (name : String) : InfraM Bool := do
  match (← ExceptT.lift (Prog.perform (σ := InfraSig) (.lookupByName conn kind name)) :
      Except GoError InfraRef) with
  | .error err =>
    if isLibvirtErr err kind.notFound then return false
    else throw (.other (.wrap ("lookup " ++ kind.lookupText ++ " " ++ name) err))
  | .ok _ => return true

/-- What `isNetworkActive` and `isStoragePoolActive` do. -/
def isResourceActive (conn : ConnRef) (kind : InfraKind) (name : String) : InfraM Bool := do
  let ref : InfraRef ←
    ExceptT.adapt (fun err => .other (.wrap ("lookup " ++ kind.lookupText ++ " " ++ name) err))
      (ExceptT.mk (Prog.perform (σ := InfraSig) (.lookupByName conn kind name)))
  ExceptT.adapt
    (fun err => .other (.wrap ("check " ++ kind.checkText ++ " active " ++ quote name) err))
    (ExceptT.mk (Prog.perform (σ := InfraSig) (.isActive conn ref)))

/-- `networkExists`. -/
def networkExists (conn : ConnRef) (name : String) : InfraM Bool :=
  resourceExists conn .network name

/-- `storagePoolExists`. -/
def storagePoolExists (conn : ConnRef) (name : String) : InfraM Bool :=
  resourceExists conn .storagePool name

/-- `isNetworkActive`. -/
def isNetworkActive (conn : ConnRef) (name : String) : InfraM Bool :=
  isResourceActive conn .network name

/-- `isStoragePoolActive`. -/
def isStoragePoolActive (conn : ConnRef) (name : String) : InfraM Bool :=
  isResourceActive conn .storagePool name

/-- What the three checks do: look the resource up, look it up once more and
ask whether it is active, and classify. The second lookup is made also where
the first has found nothing, and its error is then the result. -/
def ensureResource (kind : InfraKind) (name : String) (existing active : InfraM Bool) :
    InfraM Unit := do
  let isThere ← existing
  let isActive ← active
  ExceptT.mk (pure (infraCheckError kind name isThere isActive))

/-- `ensureNetwork`. -/
def ensureNetwork (conn : ConnRef) (name : String) : InfraM Unit :=
  ensureResource .network name (networkExists conn name) (isNetworkActive conn name)

/-- `ensureBasePool`. -/
def ensureBasePool (conn : ConnRef) (name : String) : InfraM Unit :=
  ensureResource .storagePool name (storagePoolExists conn name) (isStoragePoolActive conn name)

/-- `ensureDomainPool`. -/
def ensureDomainPool (conn : ConnRef) (name : String) : InfraM Unit :=
  ensureResource .storagePool name (storagePoolExists conn name) (isStoragePoolActive conn name)

/-- **`Provider.EnsureInfra`.** The network comes first and the first failure
ends it, so that of several things that are wrong one is reported. -/
def ensureInfra (cfg : InfraConfig) : InfraM Unit := do
  let conn : ConnRef ← ExceptT.adapt (fun err => .other (.wrap "connect to libvirt host" err))
    (ExceptT.mk (Prog.perform (σ := InfraSig) (.connect cfg)))
  ensureNetwork conn cfg.network
  ensureBasePool conn cfg.basePool
  ensureDomainPool conn cfg.domainPool

/-! ## What it should say -/

/-- The resources a configuration refers to, in the order they are checked. -/
def InfraConfig.required (cfg : InfraConfig) : List InfraRef :=
  [⟨.network, cfg.network⟩, ⟨.storagePool, cfg.basePool⟩, ⟨.storagePool, cfg.domainPool⟩]

/-- The resource exists and is active. -/
def InfraHost.fine (host : InfraHost) (ref : InfraRef) : Bool :=
  host.status ref.kind ref.name == some true

/-- The first resource that is not fine. -/
def InfraHost.firstUnfit (host : InfraHost) (cfg : InfraConfig) : Option InfraRef :=
  cfg.required.find? fun ref => !host.fine ref

/-- **A result that classifies the host**: no error if and only if everything
is fine, and otherwise the error, and with it the reason in the condition,
that says of the first resource that is not fine whether it is missing or
inactive. -/
structure Classified (host : InfraHost) (cfg : InfraConfig) (r : Except InfraError Unit) :
    Prop where
  fine : r = .ok () ↔ ∀ ref ∈ cfg.required, host.status ref.kind ref.name = some true
  missing : ∀ ref, host.firstUnfit cfg = some ref → host.status ref.kind ref.name = none →
    ∃ err, r = .error err ∧ err = .missing ref.kind ref.name
      ∧ getInfraError err = .infrastructureMissing
  inactive : ∀ ref, host.firstUnfit cfg = some ref →
    host.status ref.kind ref.name = some false →
    ∃ err, r = .error err ∧ err = .inactive ref.kind ref.name
      ∧ getInfraError err = .infrastructureInactive

/-! ## What it says -/

/-- The error of the second lookup, where there is nothing to be found. -/
def lookupError (ref : InfraRef) : InfraError :=
  .other (.wrap ("lookup " ++ ref.kind.lookupText ++ " " ++ ref.name) (.libvirt ref.kind.notFound))

/-- **What a check returns**, by what is there. There are three outcomes, and
`missing` is not among them: the error of a lookup takes its place. -/
def ensured (ref : InfraRef) : Option Bool → Except InfraError Unit
  | none => .error (lookupError ref)
  | some false => .error (.inactive ref.kind ref.name)
  | some true => .ok ()

section Checks

variable {w : InfraWorld} {conn : ConnRef} {kind : InfraKind} {name : String}

/-- The outcome of a call is the one the state determines. -/
theorem infra_perform {o : InfraSig.Op} {r : InfraSig.Ans o}
    (h : infraStep w o none = some (r, w)) :
    Prog.Yields infraSem (Prog.perform o) w w r := by
  refine .perform h fun r' t ht => ?_
  have heq := Option.some.inj (ht.symm.trans h)
  exact ⟨congrArg Prod.snd heq, congrArg Prod.fst heq⟩

theorem lookupByName_yields (conn : ConnRef) (kind : InfraKind) (name : String) :
    Prog.Yields infraSem (Prog.perform (σ := InfraSig) (.lookupByName conn kind name)) w w
      (if ((w.hosts conn.host).status kind name).isSome then
        (.ok ⟨kind, name⟩ : Except GoError InfraRef) else .error (.libvirt kind.notFound)) := by
  refine infra_perform ?_
  cases h : (w.hosts conn.host).status kind name <;> simp [infraStep, h]

/-- The error comes by value, so that the lookup never says of a resource
that it does not exist: it fails. -/
theorem resourceExists_yields :
    Prog.Yields infraSem (resourceExists conn kind name).run w w
      (if ((w.hosts conn.host).status kind name).isSome then .ok true
        else .error (lookupError ⟨kind, name⟩)) := by
  refine (lookupByName_yields conn kind name).lift_bind ?_
  cases (w.hosts conn.host).status kind name with
  | none => exact .done _
  | some active => exact .done _

/-- The second lookup would pass its error on, whatever it is. -/
theorem isResourceActive_yields :
    Prog.Yields infraSem (isResourceActive conn kind name).run w w
      (match (w.hosts conn.host).status kind name with
        | none => .error (lookupError ⟨kind, name⟩)
        | some active => .ok active) := by
  have hlookup := lookupByName_yields (w := w) conn kind name
  cases h : (w.hosts conn.host).status kind name with
  | none =>
    rw [h] at hlookup
    exact .bind_error _ (hlookup.adapt _)
  | some active =>
    rw [h] at hlookup
    have hactive : Prog.Yields infraSem
        (Prog.perform (σ := InfraSig) (.isActive conn ⟨kind, name⟩)) w w
        (.ok active : Except GoError Bool) := infra_perform (by simp only [infraStep, h])
    exact (hlookup.adapt _).bind_ok (hactive.adapt _)

theorem ensureResource_yields :
    Prog.Yields infraSem
      (ensureResource kind name (resourceExists conn kind name)
        (isResourceActive conn kind name)).run w w
      (ensured ⟨kind, name⟩ ((w.hosts conn.host).status kind name)) := by
  have hexists := @resourceExists_yields w conn kind name
  have hactive := @isResourceActive_yields w conn kind name
  cases h : (w.hosts conn.host).status kind name with
  | none =>
    rw [h] at hexists
    exact .bind_error _ hexists
  | some active =>
    rw [h] at hactive hexists
    refine hexists.bind_ok (hactive.bind_ok ?_)
    cases active <;> exact .done _

end Checks

/-! ### One check after the other -/

/-- What the checks of a list of resources return: the first error. -/
def InfraHost.ensuredAll (host : InfraHost) : List InfraRef → Except InfraError Unit
  | [] => .ok ()
  | ref :: refs =>
    match ensured ref (host.status ref.kind ref.name) with
    | .error err => .error err
    | .ok () => host.ensuredAll refs

/-- A check passes exactly for a resource that is fine. -/
theorem ensured_eq_ok {ref : InfraRef} {status : Option Bool} :
    ensured ref status = .ok () ↔ status = some true := by
  match status with
  | none => simp [ensured]
  | some false => simp [ensured]
  | some true => simp [ensured]

/-- **The result of all checks is that of the first resource that is not
fine.** What is wrong with the others does not show. -/
theorem ensuredAll_eq (host : InfraHost) (refs : List InfraRef) :
    host.ensuredAll refs = match refs.find? fun ref => !host.fine ref with
      | none => .ok ()
      | some ref => ensured ref (host.status ref.kind ref.name) := by
  induction refs with
  | nil => rfl
  | cons ref refs ih =>
    rw [InfraHost.ensuredAll, List.find?_cons]
    by_cases hfine : host.status ref.kind ref.name = some true
    · rw [ensured_eq_ok.mpr hfine, InfraHost.fine, hfine]
      exact ih
    · have hunfit : (!host.fine ref) = true := by simpa [InfraHost.fine] using hfine
      rw [hunfit]
      cases he : ensured ref (host.status ref.kind ref.name) with
      | error err => exact he.symm
      | ok u => exact absurd (ensured_eq_ok.mp he) hfine

/-- A check and the checks after it. -/
theorem ensuredAll_yields {w : InfraWorld} {host : InfraHost} {ref : InfraRef}
    {refs : List InfraRef} {x y : InfraM Unit}
    (hx : Prog.Yields infraSem x.run w w (ensured ref (host.status ref.kind ref.name)))
    (hy : Prog.Yields infraSem y.run w w (host.ensuredAll refs)) :
    Prog.Yields infraSem (x >>= fun _ => y).run w w (host.ensuredAll (ref :: refs)) := by
  rw [InfraHost.ensuredAll]
  cases he : ensured ref (host.status ref.kind ref.name) with
  | error err =>
    rw [he] at hx
    exact hx.bind_error _
  | ok u =>
    rw [he] at hx
    exact hx.bind_ok hy

/-- **What `EnsureInfra` returns** for a host that can be reached, when no
call fails. It is the only outcome, so that what the condition will say can be
read off the host. -/
theorem ensureInfra_yields {w : InfraWorld} {cfg : InfraConfig} {host : ℕ}
    (hhost : w.hostOf cfg.uri = some host) :
    Prog.Yields infraSem (ensureInfra cfg).run w w ((w.hosts host).ensuredAll cfg.required) := by
  have hconnect : Prog.Yields infraSem (Prog.perform (σ := InfraSig) (.connect cfg)) w w
      (.ok ⟨host⟩ : Except GoError ConnRef) := infra_perform (by simp only [infraStep, hhost])
  refine (hconnect.adapt _).bind_ok
    (ensuredAll_yields ensureResource_yields (ensuredAll_yields ensureResource_yields ?_))
  -- the last check is the result, without anything after it
  have hlast := @ensureResource_yields w ⟨host⟩ .storagePool cfg.domainPool
  rw [InfraHost.ensuredAll]
  cases he : ensured ⟨.storagePool, cfg.domainPool⟩
      ((w.hosts host).status .storagePool cfg.domainPool) with
  | error err =>
    rw [he] at hlast
    exact hlast
  | ok u =>
    rw [he] at hlast
    exact hlast

/-! ## Where it says what it should -/

/-- Everything is fine where no resource is the first that is not. -/
theorem firstUnfit_eq_none {host : InfraHost} {cfg : InfraConfig} :
    host.firstUnfit cfg = none ↔
      ∀ ref ∈ cfg.required, host.status ref.kind ref.name = some true := by
  rw [InfraHost.firstUnfit, List.find?_eq_none]
  refine forall₂_congr fun ref _ => ?_
  simp [InfraHost.fine]

theorem firstUnfit_status {host : InfraHost} {cfg : InfraConfig} {ref : InfraRef}
    (h : host.firstUnfit cfg = some ref) : host.status ref.kind ref.name ≠ some true := by
  have hunfit := List.find?_some h
  simpa [InfraHost.fine] using hunfit

/-- Where the first resource that is not fine exists, the host is classified. -/
theorem ensuredAll_classified {host : InfraHost} {cfg : InfraConfig}
    (h : ∀ ref, host.firstUnfit cfg = some ref → host.status ref.kind ref.name ≠ none) :
    Classified host cfg (host.ensuredAll cfg.required) := by
  have heq := ensuredAll_eq host cfg.required
  rw [← InfraHost.firstUnfit] at heq
  rw [heq]
  refine ⟨?_, fun ref href hnone => absurd hnone (h ref href), fun ref href hfalse => ?_⟩
  · rw [← firstUnfit_eq_none]
    cases hf : host.firstUnfit cfg with
    | none => simp
    | some ref => simpa using mt ensured_eq_ok.mp (firstUnfit_status hf)
  · rw [href]
    exact ⟨_, congrArg (ensured ref) hfalse, rfl, rfl⟩

/-- **`EnsureInfra` classifies a host exactly if the first resource that is
not fine, if there is one, exists.** Where it does not exist the result is a
failed lookup, and the condition says that provisioning failed instead of what
is missing. -/
theorem ensureInfra_classified_iff {w : InfraWorld} {cfg : InfraConfig} {host : ℕ}
    (hhost : w.hostOf cfg.uri = some host) :
    (∃ r, Prog.Yields infraSem (ensureInfra cfg).run w w r ∧ Classified (w.hosts host) cfg r)
    ↔ ∀ ref, (w.hosts host).firstUnfit cfg = some ref →
        (w.hosts host).status ref.kind ref.name ≠ none := by
  have hyields := ensureInfra_yields hhost
  constructor
  · rintro ⟨r, hr, hclassified⟩ ref href hnone
    obtain ⟨tr, hrun⟩ := hyields.run
    obtain ⟨-, rfl⟩ := hr.only _ _ _ hrun
    obtain ⟨err, herr, rfl, -⟩ := hclassified.missing ref href hnone
    rw [ensuredAll_eq, ← InfraHost.firstUnfit, href] at herr
    cases (congrArg (ensured ref) hnone).symm.trans herr
  · intro h
    exact ⟨_, hyields, ensuredAll_classified h⟩

/-- A host with a network and the two pools. -/
def infraWorld (network base vms : Option Bool) : InfraWorld where
  hostOf _ := some 0
  hosts _ :=
    { status := fun
        | .network, "default" => network
        | .storagePool, "base" => base
        | .storagePool, "vms" => vms
        | _, _ => none }

/-- The configuration that names them. -/
def infraConfig : InfraConfig := ⟨"qemu:///system", "base", "vms", "default", none⟩

/-- A pool that is inactive is found to be. -/
theorem ensureInfra_classified_inactive :
    ((infraWorld (some true) (some false) none).hosts 0).firstUnfit infraConfig
      = some ⟨.storagePool, "base"⟩
    ∧ ∃ r, Prog.Yields infraSem (ensureInfra infraConfig).run
        (infraWorld (some true) (some false) none) (infraWorld (some true) (some false) none) r
      ∧ Classified ((infraWorld (some true) (some false) none).hosts 0) infraConfig r := by
  have hfirst : ((infraWorld (some true) (some false) none).hosts 0).firstUnfit infraConfig
      = some ⟨.storagePool, "base"⟩ := by decide +kernel
  refine ⟨hfirst, (ensureInfra_classified_iff rfl).mpr fun ref href => ?_⟩
  rw [hfirst] at href
  cases href
  decide +kernel

/-- **A network that does not exist is not reported missing**: the second
lookup fails, and the reason is that of any other failure. -/
theorem ensureInfra_missing_network :
    ((infraWorld none (some true) (some true)).hosts 0).firstUnfit infraConfig
      = some ⟨.network, "default"⟩
    ∧ Prog.Yields infraSem (ensureInfra infraConfig).run
        (infraWorld none (some true) (some true)) (infraWorld none (some true) (some true))
        (.error (lookupError ⟨.network, "default"⟩))
    ∧ getInfraError (lookupError ⟨.network, "default"⟩) = .infrastructureProvisioningFailed
    ∧ ¬ Classified ((infraWorld none (some true) (some true)).hosts 0) infraConfig
        (.error (lookupError ⟨.network, "default"⟩)) := by
  have hfirst : ((infraWorld none (some true) (some true)).hosts 0).firstUnfit infraConfig
      = some ⟨.network, "default"⟩ := by decide +kernel
  refine ⟨hfirst, ensureInfra_yields rfl, rfl, fun h => ?_⟩
  obtain ⟨err, herr, rfl, -⟩ := h.missing _ hfirst (by decide +kernel)
  cases herr

end LibvirtProvider

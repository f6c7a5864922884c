import LibvirtProvider.Api

/-!
# The credentials loader and its watch

The model of the controllers' `credentials.go`. A `LibvirtCluster` names the
Secret with its credentials, in its own namespace; one that names none uses
the controller-wide Secret, if there is one. `load` is the lookup, with the
checks of the Secret's keys.

`secretToLibvirtClusters` goes the other way: when a Secret changes, it says
which clusters are to be reconciled. It is written separately, through an
index and a special case, and has to be the inverse of the lookup. What a
lookup reads is one Secret at most (`secretOf`), so a change that makes a
difference to a cluster is a change of that Secret, and the cluster is among
the requests (`no_missed_credential_change`).
-/

namespace LibvirtProvider

open Interaction

/-! ## Secrets -/

/-- `corev1.Secret.Data`. -/
abbrev SecretData := List (String × Bytes)

/-- `data[key]`: empty when the key is not there. -/
def SecretData.value (data : SecretData) (key : String) : Bytes := (data.lookup key).getD []

/-- `infrav1.CredentialsCACertKey`. -/
def credentialsCACertKey : String := "ca.crt"

/-- `corev1.TLSCertKey`. -/
def tlsCertKey : String := "tls.crt"

/-- `corev1.TLSPrivateKeyKey`. -/
def tlsPrivateKeyKey : String := "tls.key"

/-- `corev1.SSHAuthPrivateKey`. -/
def sshAuthPrivateKey : String := "ssh-privatekey"

/-- `infrav1.CredentialsKnownHostsKey`. -/
def credentialsKnownHostsKey : String := "known_hosts"

/-- `tlsSecretKeys`. -/
def tlsSecretKeys : List String := [credentialsCACertKey, tlsCertKey, tlsPrivateKeyKey]

/-- `sshSecretKeys`. -/
def sshSecretKeys : List String := [sshAuthPrivateKey, credentialsKnownHostsKey]

/-- `hasAnyKey`. -/
def hasAnyKey (data : SecretData) (keys : List String) : Bool :=
  keys.any fun key => 0 < (data.value key).length

/-- `requireKeys`. -/
def requireKeys (data : SecretData) (keys : List String) : Except GoError Unit :=
  let missing := keys.filter fun key => (data.value key).length = 0
  if missing.length > 0 then .error (.text ("missing keys: " ++ ", ".intercalate missing))
  else .ok ()

/-- `credentialsFromSecret`: nothing when all keys are empty, an error on a
partial set. Both kinds of credentials may be there at once. -/
def credentialsFromSecret (data : SecretData) : Except GoError (Option Credentials) := do
  let tls ←
    if hasAnyKey data tlsSecretKeys then do
      requireKeys data tlsSecretKeys
      pure (some (⟨data.value credentialsCACertKey, data.value tlsCertKey,
        data.value tlsPrivateKeyKey⟩ : TLSCredentials))
    else pure none
  let ssh ←
    if hasAnyKey data sshSecretKeys then do
      requireKeys data sshSecretKeys
      pure (some (⟨data.value sshAuthPrivateKey, data.value credentialsKnownHostsKey⟩ :
        SSHCredentials))
    else pure none
  if tls.isNone && ssh.isNone then pure none else pure (some ⟨tls, ssh⟩)

/-! ## The loader -/

/-- The list options that are used: a namespace, and a value of the index
`credentialsRefNameField`. -/
structure ListOptions where
  inNamespace : String
  credentialsRefName : String

/-- **What the loader needs of its client**: to get a Secret, and to list
`LibvirtCluster`s, with options or without. Any client will do for the loader;
the results are about one that reads a store. -/
structure Client where
  get : NamespacedName → Except ApiError SecretData
  list : Option ListOptions → Except ApiError (List LibvirtCluster)

/-- `CredentialsLoader`. An empty name turns the default Secret off. -/
structure CredentialsLoader where
  client : Client
  defaultSecret : NamespacedName

/-- `client.ObjectKeyFromObject`. -/
def LibvirtCluster.key (c : LibvirtCluster) : NamespacedName := ⟨c.nmspace, c.name⟩

/-- `credentialsRefName`: the index function. -/
def credentialsRefName (c : LibvirtCluster) : List String :=
  match c.spec.credentialsRef with
  | none => []
  | some name => [name]

namespace CredentialsLoader

variable (l : CredentialsLoader)

/-- `CredentialsLoader.loadRef`, for the name in the reference. -/
def loadRef (libvirtCluster : LibvirtCluster) (name : String) :
    Except GoError (Option Credentials) :=
  let key : NamespacedName := ⟨libvirtCluster.nmspace, name⟩
  match l.client.get key with
  | .error err => .error (.wrap ("get credentials secret " ++ key.text) err.toGo)
  | .ok data =>
    match credentialsFromSecret data with
    | .error err => .error (.wrap ("credentials secret " ++ key.text) err)
    | .ok none => .error (.text ("credentials secret " ++ key.text ++ ": no TLS keys ("
        ++ ", ".intercalate tlsSecretKeys ++ ") or SSH keys (" ++ ", ".intercalate sshSecretKeys
        ++ ") found"))
    | .ok (some creds) => .ok (some creds)

/-- `CredentialsLoader.Load`. A Secret that is named has to be there and to
have keys in it; the default one need not. -/
def load (libvirtCluster : LibvirtCluster) : Except GoError (Option Credentials) :=
  match libvirtCluster.spec.credentialsRef with
  | some name => l.loadRef libvirtCluster name
  | none =>
    if l.defaultSecret.name = "" then .ok none
    else
      match l.client.get l.defaultSecret with
      | .error .notFound => .ok none
      | .error err =>
        .error (.wrap ("get default credentials secret " ++ l.defaultSecret.text) err.toGo)
      | .ok data =>
        match credentialsFromSecret data with
        | .error err => .error (.wrap ("default credentials secret " ++ l.defaultSecret.text) err)
        | .ok creds => .ok creds

/-- `CredentialsLoader.secretToLibvirtClusters`. For the default Secret it is
all clusters, those with a Secret of their own included; a failed list wakes
nobody. -/
def secretToLibvirtClusters (secret : NamespacedName) : List NamespacedName :=
  let opts : Option ListOptions :=
    if secret = l.defaultSecret then none else some ⟨secret.nmspace, secret.name⟩
  match l.client.list opts with
  | .error _ => []
  | .ok items => items.map LibvirtCluster.key

/-- **The Secret a lookup reads**, if it reads one. It is not a function of
the source, but what `load` and the watch have to agree on. -/
def secretOf (libvirtCluster : LibvirtCluster) : Option NamespacedName :=
  match libvirtCluster.spec.credentialsRef with
  | some name => some ⟨libvirtCluster.nmspace, name⟩
  | none => if l.defaultSecret.name = "" then none else some l.defaultSecret

/-- A lookup depends on the client for that Secret only. -/
theorem load_congr {client' : Client} {c : LibvirtCluster}
    (h : ∀ key, l.secretOf c = some key → client'.get key = l.client.get key) :
    load ⟨client', l.defaultSecret⟩ c = l.load c := by
  unfold load
  unfold secretOf at h
  cases href : c.spec.credentialsRef with
  | some name =>
    rw [href] at h
    simp only [loadRef, h _ rfl]
  | none =>
    rw [href] at h
    by_cases hoff : l.defaultSecret.name = ""
    · simp only [if_pos hoff]
    · simp only [if_neg hoff] at h ⊢
      rw [h _ rfl]

end CredentialsLoader

/-! ## A store -/

/-- **Secrets and `LibvirtCluster`s**, as they are stored. -/
structure CredentialsStore where
  secrets : NamespacedName → Option SecretData
  clusters : List LibvirtCluster

namespace CredentialsStore

variable (store : CredentialsStore) (defaultSecret secret : NamespacedName)

/-- A Secret is created, deleted or given other data. -/
def set (data : Option SecretData) : CredentialsStore :=
  { store with secrets := Function.update store.secrets secret data }

/-- A client of the store. It finds what is there, and lists the clusters of a
namespace whose index values contain a name. -/
def client : Client where
  get key :=
    match store.secrets key with
    | none => .error .notFound
    | some data => .ok data
  list
    | none => .ok store.clusters
    | some opts => .ok (store.clusters.filter fun c =>
        c.nmspace = opts.inNamespace ∧ opts.credentialsRefName ∈ credentialsRefName c)

/-- The loader on the store. -/
def loader : CredentialsLoader := ⟨store.client, defaultSecret⟩

theorem load_set_of_ne {c : LibvirtCluster} (data : Option SecretData)
    (h : (store.loader defaultSecret).secretOf c ≠ some secret) :
    ((store.set secret data).loader defaultSecret).load c
      = (store.loader defaultSecret).load c := by
  refine (store.loader defaultSecret).load_congr fun key hkey => ?_
  have hne : key ≠ secret := by
    rintro rfl
    exact h hkey
  show (match Function.update store.secrets secret data key with
    | none => _
    | some data => _) = _
  rw [Function.update_of_ne hne]
  rfl

/-- For a Secret that is not the default one, the requests are the clusters
of its namespace that name it. -/
theorem secretToLibvirtClusters_of_ne (h : secret ≠ defaultSecret) :
    (store.loader defaultSecret).secretToLibvirtClusters secret
      = (store.clusters.filter fun c => c.nmspace = secret.nmspace
          ∧ c.spec.credentialsRef = some secret.name).map LibvirtCluster.key := by
  have hopts : (if secret = defaultSecret then none
      else some (⟨secret.nmspace, secret.name⟩ : ListOptions)) = some ⟨_, _⟩ := if_neg h
  unfold CredentialsLoader.secretToLibvirtClusters loader
  simp only [hopts, client]
  congr 1
  refine List.filter_congr fun c _ => ?_
  rw [decide_eq_decide, and_congr_right_iff]
  intro _
  unfold credentialsRefName
  cases c.spec.credentialsRef <;> simp [eq_comm]

/-- The cluster that reads a Secret is among the Secret's requests, by the
index or because the Secret is the default one. -/
theorem mem_secretToLibvirtClusters {c : LibvirtCluster} (hc : c ∈ store.clusters)
    (h : (store.loader defaultSecret).secretOf c = some secret) :
    c.key ∈ (store.loader defaultSecret).secretToLibvirtClusters secret := by
  by_cases hdefault : secret = defaultSecret
  · -- all clusters are requested for the default Secret
    have hlist : (store.loader defaultSecret).secretToLibvirtClusters secret
        = store.clusters.map LibvirtCluster.key := by
      unfold CredentialsLoader.secretToLibvirtClusters loader
      simp only [if_pos hdefault, client]
    rw [hlist]
    exact List.mem_map_of_mem hc
  · rw [secretToLibvirtClusters_of_ne _ _ _ hdefault]
    refine List.mem_map_of_mem (List.mem_filter.mpr ⟨hc, ?_⟩)
    unfold CredentialsLoader.secretOf at h
    cases href : c.spec.credentialsRef with
    | none =>
      rw [href] at h
      dsimp only at h
      split at h
      · cases h
      · exact absurd (Option.some.inj h).symm hdefault
    | some name =>
      rw [href] at h
      obtain rfl := Option.some.inj h
      simp

end CredentialsStore

/-- **No missed credential change.** Whatever is stored, whatever the default
Secret is: a cluster whose credentials come out differently once a Secret is
created, deleted or given other data is among the requests for that Secret;
and the requests for one that is not the default are exactly the clusters of
its namespace that name it. -/
theorem no_missed_credential_change (store : CredentialsStore)
    (defaultSecret secret : NamespacedName) :
    (∀ data, ∀ c ∈ store.clusters,
      ((store.set secret data).loader defaultSecret).load c
        ≠ (store.loader defaultSecret).load c →
      c.key ∈ ((store.set secret data).loader defaultSecret).secretToLibvirtClusters secret)
    ∧ (secret ≠ defaultSecret →
      (store.loader defaultSecret).secretToLibvirtClusters secret
        = (store.clusters.filter fun c => c.nmspace = secret.nmspace
            ∧ c.spec.credentialsRef = some secret.name).map LibvirtCluster.key) := by
  refine ⟨fun data c hc hchange => ?_, store.secretToLibvirtClusters_of_ne defaultSecret secret⟩
  refine (store.set secret data).mem_secretToLibvirtClusters defaultSecret secret hc ?_
  by_contra hne
  exact hchange (store.load_set_of_ne defaultSecret secret data hne)

/-- A cluster that names a Secret which is not there yet. -/
def credentialsStore : CredentialsStore where
  secrets _ := none
  clusters := [⟨"prod", "default", ⟨"qemu+ssh://host/system", "base", "domains", "default",
    some "ssh"⟩⟩]

/-- The Secret is created: the lookup failed before, and now it does not. -/
theorem no_missed_credential_change_created :
    (⟨"default", "prod"⟩ : NamespacedName)
      ∈ ((credentialsStore.set ⟨"default", "ssh"⟩
          (some [("ssh-privatekey", [1]), ("known_hosts", [2])])).loader
            ⟨"system", "credentials"⟩).secretToLibvirtClusters ⟨"default", "ssh"⟩ :=
  (no_missed_credential_change credentialsStore ⟨"system", "credentials"⟩ ⟨"default", "ssh"⟩).1
    (some [("ssh-privatekey", [1]), ("known_hosts", [2])]) _ (List.mem_singleton_self _)
    (by decide +kernel)

end LibvirtProvider

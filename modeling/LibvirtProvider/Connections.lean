import LibvirtProvider.Connect
import LibvirtProvider.Interleaving

/-!
# Connections side by side

The controllers connect side by side, to different hosts with different
credentials, and are cut off in the middle. What libvirt opens for a URI is
what belongs to it, in every order of their calls
(`connections_read_their_own_credentials`).

The invariant is `InOwnDirectories`: each connection that is being opened has
a directory of its own, which holds what it has written so far. Directories of
two connections are at the same depth, so that nothing is below both, and
others leave directories of that name alone.
-/

namespace LibvirtProvider

open Interaction QueryText

/-- **A directory holds files**: those and nothing else, with the mode for
keys. Every path at or below the directory is accounted for, so that a file
that does not belong there is excluded as well. -/
def HoldsFiles (fs : Files) (place : List Text) (files : List CredentialFile) : Prop :=
  ∀ k, place <:+ k → fs.node k =
    if k = place then some .dir
    else (files.find? fun f => ascii f.name :: place = k).map
      fun f => .file (f.data, credentialsFileMode)

/-- **The connections that are being opened**: each has a directory of its
own, which holds what has been written so far. A connection that is only to
remove its directory still has it to itself, but what is in it no longer
matters. -/
structure InOwnDirectories {ι : Type} (tempDir : Text) (cfg : ι → InfraConfig)
    (q : ι → ConnectStage) (fs : Files) : Prop where
  made : ∀ i dir, (q i).At dir → Made tempDir dir ∧ fs.node (cleanElements dir) = some .dir
  apart : ∀ i j dir dir', (q i).At dir → (q j).At dir' →
    cleanElements dir = cleanElements dir' → i = j
  holds : ∀ i dir n, q i = .writing dir n →
    HoldsFiles fs (cleanElements dir) ((cfg i).credentialFiles.take n)

/-- What others on the machine do: they leave the directories for credentials
alone. Everything else they may do at any time, in the directory for temporary
files too. -/
def Foreign (tempDir : Text) (fs fs' : Files) : Prop :=
  ∀ name, credentialsDirPattern <+: name → ∀ k, name :: cleanElements tempDir <:+ k →
    fs'.node k = fs.node k

section SideBySide

variable {ι : Type} {tempDir dir : Text} {cfg : ι → InfraConfig} {q : ι → ConnectStage}
  {fs fs' : Files} {i : ι}

theorem HoldsFiles.congr {place : List Text} {files : List CredentialFile}
    (h : HoldsFiles fs place files)
    (hs : ∀ k, place <:+ k → fs'.node k = fs.node k) : HoldsFiles fs' place files :=
  fun k hk => (hs k hk).trans (h k hk)

/-- A directory that was just made is empty. -/
theorem holdsFiles_nil {place : List Text} (hnone : fs.node place = none)
    (hnew : fs'.node place = some .dir) (hs : ∀ k, k ≠ place → fs'.node k = fs.node k) :
    HoldsFiles fs' place [] := by
  intro k hk
  by_cases hkp : k = place
  · rw [if_pos hkp, hkp, hnew]
  · rw [if_neg hkp, hs k hkp, FileTree.node_eq_none_of_suffix hnone hk]
    rfl

/-- **The next file is written**: the directory holds one more. As the names
differ there is none in its place, so it gets the mode that was asked for. -/
theorem HoldsFiles.write {place : List Text} {files : List CredentialFile} {n : ℕ}
    {f : CredentialFile}
    (h : HoldsFiles fs place (files.take n)) (hf : files[n]? = some f)
    (hnodup : (files.map fun f => ascii f.name).Nodup)
    (hnew : fs.node (ascii f.name :: place) = none →
      fs'.node (ascii f.name :: place) = some (.file (f.data, credentialsFileMode)))
    (hs : ∀ k, k ≠ ascii f.name :: place → fs'.node k = fs.node k) :
    HoldsFiles fs' place (files.take (n + 1)) := by
  have hfree : (files.take n).find?
      (fun g => ascii g.name :: place = ascii f.name :: place) = none := by
    rw [List.find?_eq_none]
    intro g hg heq
    obtain ⟨hn, rfl⟩ := List.getElem?_eq_some_iff.mp hf
    rw [← List.take_append_drop n files, List.map_append, List.nodup_append] at hnodup
    refine hnodup.2.2 _ (List.mem_map_of_mem hg) _ (List.mem_map_of_mem ?_)
      (List.cons.inj (of_decide_eq_true heq)).1
    rw [List.drop_eq_getElem_cons hn]
    exact List.mem_cons_self
  intro k hk
  rw [List.take_add_one, hf, List.find?_append]
  by_cases hkf : k = ascii f.name :: place
  · subst hkf
    have hne := List.cons_ne_self (ascii f.name) place
    have hold := h _ hk
    rw [if_neg hne, hfree] at hold
    rw [if_neg hne, hfree, hnew hold]
    simp
  · rw [hs k hkf, h k hk]
    have hother : ([f].find? fun g => ascii g.name :: place = k) = none := by
      simp [Ne.symm hkf]
    rw [Option.toList_some, hother, Option.or_none]

/-- A file of the directory is found under its path, with its own content.
This is the step from what was written to what libvirt reads. -/
theorem HoldsFiles.node_eq {files : List CredentialFile} {f : CredentialFile}
    (h : HoldsFiles fs (cleanElements dir) files)
    (hnodup : (files.map fun f => ascii f.name).Nodup) (hname : FileName (ascii f.name))
    (hdir : dir ≠ []) (hf : f ∈ files) :
    fs.node (cleanElements (filepathJoin dir (ascii f.name)))
      = some (.file (f.data, credentialsFileMode)) := by
  have hfind : (files.find? fun g => ascii g.name :: cleanElements dir
      = ascii f.name :: cleanElements dir) = some f := by
    obtain ⟨pre, post, rfl⟩ := List.append_of_mem hf
    rw [List.map_append, List.nodup_append] at hnodup
    refine List.find?_eq_some_iff_append.mpr ⟨by simp, pre, post, rfl, fun g hg => ?_⟩
    have hne := hnodup.2.2 _ (List.mem_map_of_mem hg) _ List.mem_cons_self
    simpa using hne
  rw [cleanElements_filepathJoin hname hdir, h _ (List.suffix_cons _ _),
    if_neg (List.cons_ne_self _ _), hfind]
  rfl

/-- Two directories have nothing in common: they are at one depth, so that
neither is in the other. -/
theorem Made.disjoint (htemp : tempDir ≠ []) {dir' : Text} (h : Made tempDir dir)
    (h' : Made tempDir dir') (hne : cleanElements dir ≠ cleanElements dir') {k : List Text}
    (hk : cleanElements dir <:+ k) : ¬ cleanElements dir' <:+ k := by
  obtain ⟨name, -, hname⟩ := h.place htemp
  obtain ⟨name', -, hname'⟩ := h'.place htemp
  intro hk'
  exact hne (suffix_unique hk hk' (by rw [hname, hname', List.length_cons, List.length_cons]))

/-- What is below a directory is not below another one. -/
theorem InOwnDirectories.disjoint (htemp : tempDir ≠ []) (h : InOwnDirectories tempDir cfg q fs)
    {j : ι} {dir' : Text} (hj : j ≠ i) (hdir : (q i).At dir) (hdir' : (q j).At dir')
    {k : List Text} (hk : cleanElements dir' <:+ k) : ¬ cleanElements dir <:+ k :=
  (h.made j dir' hdir').1.disjoint htemp (h.made i dir hdir).1
    (fun heq => hj (h.apart j i dir' dir hdir' hdir heq)) hk

/-- What others do does not matter. -/
theorem InOwnDirectories.foreign (htemp : tempDir ≠ []) (h : InOwnDirectories tempDir cfg q fs)
    (hs : Foreign tempDir fs fs') : InOwnDirectories tempDir cfg q fs' := by
  have hkept {i : ι} {dir : Text} (hdir : (q i).At dir) (k : List Text)
      (hk : cleanElements dir <:+ k) : fs'.node k = fs.node k := by
    obtain ⟨name, hpattern, hplace⟩ := (h.made i dir hdir).1.place htemp
    exact hs name hpattern k (hplace ▸ hk)
  refine ⟨fun i dir hdir => ?_, h.apart, fun i dir n hn => ?_⟩
  · obtain ⟨hmade, hthere⟩ := h.made i dir hdir
    exact ⟨hmade, (hkept hdir _ (List.suffix_refl _)).trans hthere⟩
  · have hdir : (q i).At dir := hn ▸ rfl
    exact (h.holds i dir n hn).congr (hkept hdir)

variable [DecidableEq ι]

/-- One connection goes on, and the directories of the others stay as they
are. What is left to show is about the one connection only. -/
theorem InOwnDirectories.update (h : InOwnDirectories tempDir cfg q fs) {qi : ConnectStage}
    (hkept : ∀ j dir, j ≠ i → (q j).At dir → ∀ k, cleanElements dir <:+ k →
      fs'.node k = fs.node k)
    (hmade : ∀ dir, qi.At dir → Made tempDir dir ∧ fs'.node (cleanElements dir) = some .dir)
    (hapart : ∀ dir, qi.At dir → ∀ j dir', j ≠ i → (q j).At dir' →
      cleanElements dir' ≠ cleanElements dir)
    (hholds : ∀ dir n, qi = .writing dir n →
      HoldsFiles fs' (cleanElements dir) ((cfg i).credentialFiles.take n)) :
    InOwnDirectories tempDir cfg (Function.update q i qi) fs' := by
  refine ⟨fun j dir hj => ?_, fun j j' dir dir' hj hj' heq => ?_, fun j dir n hj => ?_⟩
  · by_cases hji : j = i
    · subst hji
      rw [Function.update_self] at hj
      exact hmade dir hj
    · rw [Function.update_of_ne hji] at hj
      obtain ⟨hm, hnode⟩ := h.made j dir hj
      exact ⟨hm, (hkept j dir hji hj _ (List.suffix_refl _)).trans hnode⟩
  · by_cases hji : j = i
    · by_cases hji' : j' = i
      · rw [hji, hji']
      · subst hji
        rw [Function.update_self] at hj
        rw [Function.update_of_ne hji'] at hj'
        exact absurd heq.symm (hapart dir hj j' dir' hji' hj')
    · rw [Function.update_of_ne hji] at hj
      by_cases hji' : j' = i
      · subst hji'
        rw [Function.update_self] at hj'
        exact absurd heq (hapart dir' hj' j dir hji hj)
      · rw [Function.update_of_ne hji'] at hj'
        exact h.apart j j' dir dir' hj hj' heq
  · by_cases hji : j = i
    · subst hji
      rw [Function.update_self] at hj
      exact hholds dir n hj
    · rw [Function.update_of_ne hji] at hj
      refine (h.holds j dir n hj).congr (hkept j dir hji ?_)
      rw [hj]
      rfl

/-- The connection is one without a directory from now on. -/
theorem InOwnDirectories.leave (h : InOwnDirectories tempDir cfg q fs) {qi : ConnectStage}
    (hkept : ∀ j dir, j ≠ i → (q j).At dir → ∀ k, cleanElements dir <:+ k →
      fs'.node k = fs.node k)
    (hqi : ∀ dir, ¬ qi.At dir) : InOwnDirectories tempDir cfg (Function.update q i qi) fs' :=
  h.update hkept (fun dir hdir => absurd hdir (hqi dir)) (fun dir hdir => absurd hdir (hqi dir))
    fun dir _ hn => absurd (hn ▸ rfl) (hqi dir)

/-- The connection goes on in its directory. -/
theorem InOwnDirectories.stay (h : InOwnDirectories tempDir cfg q fs) {qi : ConnectStage}
    (hdir : (q i).At dir) (hthere : fs'.node (cleanElements dir) = some .dir)
    (hkept : ∀ j dir, j ≠ i → (q j).At dir → ∀ k, cleanElements dir <:+ k →
      fs'.node k = fs.node k)
    (hqi : ∀ d, qi.At d → d = dir)
    (hholds : ∀ d n, qi = .writing d n →
      HoldsFiles fs' (cleanElements d) ((cfg i).credentialFiles.take n)) :
    InOwnDirectories tempDir cfg (Function.update q i qi) fs' := by
  refine h.update hkept (fun d hd => ?_) (fun d hd j dir' hj hdir' heq => ?_) hholds
  · obtain rfl := hqi d hd
    exact ⟨(h.made i d hdir).1, hthere⟩
  · obtain rfl := hqi d hd
    exact hj (h.apart j i dir' d hdir' hdir heq)

/-- **A directory is made** for a connection. It was not there before, so it is
nobody else's, and nobody else's is below it. -/
theorem InOwnDirectories.mkdirTemp (htemp : tempDir ≠ []) (h : InOwnDirectories tempDir cfg q fs)
    {r : Except GoError Text}
    (hs : connectSem tempDir fs (.mkdirTemp [] credentialsDirPattern) r fs') :
    InOwnDirectories tempDir cfg (Function.update q i
      (ConnectStage.out.next (.mkdirTemp [] credentialsDirPattern) r)) fs' := by
  rcases mkdirTemp_spec hs with ⟨⟨e, rfl⟩, rfl⟩ | ⟨dir, rfl, hmade, hnone, hnew, hothers⟩
  · exact h.leave (fun _ _ _ _ _ _ => rfl) fun _ hd => hd
  have hfresh {j : ι} {dir' : Text} (hdir' : (q j).At dir') :
      cleanElements dir' ≠ cleanElements dir := by
    intro heq
    have hthere := (h.made j dir' hdir').2
    rw [heq, hnone] at hthere
    cases hthere
  refine h.update (fun j dir' _ hdir' k hk => hothers k ?_) ?_ ?_ ?_
  · rintro rfl
    exact (h.made j dir' hdir').1.disjoint htemp hmade (hfresh hdir') hk (List.suffix_refl _)
  · rintro d rfl
    exact ⟨hmade, hnew⟩
  · rintro d rfl j dir' - hdir'
    exact hfresh hdir'
  · rintro d n hn
    cases hn
    exact holdsFiles_nil hnone hnew hothers

/-- **A file is written** by a connection, whole or in part. Nothing outside its
directory changes, and the directory holds one more file if the call succeeds. -/
theorem InOwnDirectories.writeFile (htemp : tempDir ≠ []) (h : InOwnDirectories tempDir cfg q fs)
    {n : ℕ} (hq : q i = .writing dir n) {f : CredentialFile}
    (hf : (cfg i).credentialFiles[n]? = some f) {r : Except GoError Unit}
    (hs : connectSem tempDir fs
      (.file (.writeFile (filepathJoin dir (ascii f.name)) f.data credentialsFileMode)) r fs') :
    InOwnDirectories tempDir cfg (Function.update q i (ConnectStage.next (.writing dir n)
      (.file (.writeFile (filepathJoin dir (ascii f.name)) f.data credentialsFileMode)) r))
      fs' := by
  have hdir : (q i).At dir := hq ▸ rfl
  obtain ⟨hmade, hthere⟩ := h.made i dir hdir
  obtain ⟨hnodup, hnames⟩ := credentialFiles_names (cfg i)
  have hpath := cleanElements_filepathJoin (hnames f (List.mem_of_getElem? hf)) hmade.ne_nil
  obtain ⟨hothers, hnew⟩ := writeFile_spec hs
  rw [hpath] at hothers hnew
  have hkept (j : ι) (dir' : Text) (hj : j ≠ i) (hdir' : (q j).At dir') (k : List Text)
      (hk : cleanElements dir' <:+ k) : fs'.node k = fs.node k := by
    refine hothers k ?_
    rintro rfl
    exact h.disjoint htemp hj hdir hdir' hk (List.suffix_cons _ _)
  have hthere' : fs'.node (cleanElements dir) = some .dir :=
    (hothers _ (List.cons_ne_self _ _).symm).trans hthere
  cases r with
  | error e => exact h.stay hdir hthere' hkept (fun _ hd => hd.symm) fun d n hn => (by cases hn)
  | ok _ =>
    refine h.stay hdir hthere' hkept (fun _ hd => hd.symm) fun d m hm => ?_
    cases hm
    exact (h.holds i dir n hq).write hf hnodup (hnew rfl) hothers

/-- **A connection removes its directory**, or fails to. The directories of the
others are not below it. -/
theorem InOwnDirectories.removeAll (htemp : tempDir ≠ []) (h : InOwnDirectories tempDir cfg q fs)
    (hdir : (q i).At dir) {r : Except GoError Unit}
    (hs : connectSem tempDir fs (.removeAll dir) r fs') :
    InOwnDirectories tempDir cfg (Function.update q i ((q i).next (.removeAll dir) r)) fs' := by
  refine h.leave (fun j dir' hj hdir' k hk => (removeAll_spec hs).1 k
    (h.disjoint htemp hj hdir hdir' hk)) fun d => ?_
  cases r with
  | ok _ =>
    rw [hdir.next_removeAll.1]
    exact id
  | error err =>
    rw [hdir.next_removeAll.2]
    exact id

/-- **One call of one of the connections** keeps every directory apart. The
cases are the calls that the monitor allows in each stage. -/
theorem InOwnDirectories.step (htemp : tempDir ≠ []) (h : InOwnDirectories tempDir cfg q fs)
    {o : ConnectSig.Op} {r : ConnectSig.Ans o} (hallowed : (connectMonitor (cfg i)).allows (q i) o)
    (hs : connectSem tempDir fs o r fs') :
    InOwnDirectories tempDir cfg (Function.update q i ((q i).next o r)) fs' := by
  cases hq : q i with
  | left d =>
    rw [hq] at hallowed
    exact hallowed.elim
  | out =>
    rw [hq] at hallowed
    cases o with
    | file o => exact hallowed.elim
    | removeAll path => exact hallowed.elim
    | newConnect uri =>
      obtain rfl := newConnect_spec hs
      exact h.leave (fun _ _ _ _ _ _ => rfl) fun _ hd => hd
    | mkdirTemp d pattern =>
      obtain ⟨rfl, rfl⟩ := hallowed
      exact h.mkdirTemp htemp hs
  | closing dir =>
    rw [hq] at hallowed
    cases o with
    | mkdirTemp d pattern => exact hallowed.elim
    | file o => exact hallowed.elim
    | newConnect uri => exact hallowed.elim
    | removeAll path =>
      obtain rfl : path = dir := hallowed
      rw [← hq]
      exact h.removeAll htemp (hq ▸ rfl) hs
  | writing dir n =>
    have hdir : (q i).At dir := hq ▸ rfl
    rw [hq] at hallowed
    cases o with
    | mkdirTemp d pattern => exact hallowed.elim
    | removeAll path =>
      obtain rfl : path = dir := hallowed
      rw [← hq]
      exact h.removeAll htemp hdir hs
    | newConnect uri =>
      obtain rfl := newConnect_spec hs
      exact h.stay hdir (h.made i dir hdir).2 (fun _ _ _ _ _ _ => rfl) (fun _ hd => hd.symm)
        fun d n hn => (by cases hn)
    | file o =>
      obtain ⟨path, data, perm⟩ := o
      obtain ⟨f, hf, rfl, rfl, rfl⟩ := hallowed
      exact h.writeFile htemp hq hf hs

/-- Each client opens connections for one configuration, one after the other
and any number of times. -/
def connectMenu (lib : NetURL) (cfg : ι → InfraConfig) (i : ι)
    (p : Prog ConnectSig (Except GoError ConnRef)) : Prop := p = (connect lib (cfg i)).run

/-- **libvirt is pointed to the files** that are there. A space in the
directory would be read as a `+`, and the files looked for elsewhere. -/
theorem filesRead_of_pointsTo {c : InfraConfig} {uri : Text} (hspace : ' '.toUInt8 ∉ dir)
    (h : PointsTo c dir uri) :
    filesRead (uriTransport (utf8 c.uri)) (libvirtParameters uri)
      = c.credentialFiles.map fun f => filepathJoin dir (ascii f.name) := by
  have hplain : DirectoryPlain (uriTransport (utf8 c.uri)) dir := by
    unfold DirectoryPlain
    split
    · exact hspace
    · exact fun hmem => hspace (mem_of_mem_filepathClean (by decide) (by decide) hmem)
  have hset : ∀ s ∈ credentialSettings (uriTransport (utf8 c.uri)) dir,
      (libvirtParameters uri).filter (·.1 = s.1) = [s] := by
    intro s hs
    rw [libvirtParameters, h.query, (settings_credentialSettings _ dir).filter_readParameters _ hs,
      (directoryPlain_iff _ dir).mp hplain s hs]
  rw [filesRead_of_set hset, ← h.names, List.map_map]
  rfl

/-- **A connection is opened with its own credentials.** Any number of
connections are being opened side by side, for configurations of their own,
with calls failing and programs cut off anywhere, on a machine where others
leave directories of that name alone. The directory for temporary files has a
name, and no space in it: the URI would have a `+` for it, which libvirt takes
as it is. Whenever libvirt is called for a configuration that has credentials,
there are files for it to read, and what it reads where the URI points to are
these credentials, readable by the owner only; the directory holds nothing
else. -/
theorem connections_read_their_own_credentials {lib : NetURL} (htemp : tempDir ≠ [])
    (hspace : ' '.toUInt8 ∉ tempDir) {p₀ p : Pool ι Files ConnectSig (Except GoError ConnRef)}
    (hidle : ∀ i, ∃ r, p₀.prog i = .done r)
    (hreach : Pool.Reach (connectSem tempDir) (connectMenu lib cfg) (Foreign tempDir)
      (fun _ _ => True) p₀ p)
    {uri : Text} {k : ConnectSig.Ans (.newConnect uri) → Prog ConnectSig (Except GoError ConnRef)}
    (hnext : p.prog i = .call (.newConnect uri) k) (hc : (cfg i).credentials ≠ none) :
    (cfg i).credentialFiles ≠ []
    ∧ (filesRead (uriTransport (utf8 (cfg i).uri)) (libvirtParameters uri)).map
        (fun path => p.state.node (cleanElements path))
      = (cfg i).credentialFiles.map (fun f => some (.file (f.data, credentialsFileMode)))
    ∧ ∃ dir, Made tempDir dir
      ∧ HoldsFiles p.state (cleanElements dir) (cfg i).credentialFiles := by
  have hstart : Pool.Monitored (fun i => connectMonitor (cfg i)) (InOwnDirectories tempDir cfg)
      p₀ := by
    refine ⟨fun _ => .out, ⟨fun _ _ h => h.elim, fun _ _ _ _ h => h.elim, fun _ _ _ h => ?_⟩,
      fun i => ?_⟩
    · cases h
    · obtain ⟨r, hr⟩ := hidle i
      rw [hr]
      trivial
  obtain ⟨q, hR, hobeys⟩ := hstart.reach (fun _ => .out)
    (fun q fs i o r fs' hR hallowed hs _ => hR.step htemp hallowed hs)
    (fun q fs i hR => hR.update (fun _ _ _ _ _ _ => rfl) (fun _ h => h.elim) (fun _ h => h.elim)
      fun _ _ h => (by cases h))
    (fun i p hp => hp ▸ (connect_obeys lib (cfg i)).mono fun _ _ _ => trivial)
    (fun q fs fs' hR hs => hR.foreign htemp hs) hreach
  have hallowed := (hnext ▸ hobeys i).1
  cases hq : q i with
  | left dir =>
    rw [hq] at hallowed
    exact hallowed.elim
  | closing dir =>
    rw [hq] at hallowed
    exact hallowed.elim
  | out =>
    rw [hq] at hallowed
    exact absurd hallowed.1 hc
  | writing dir n =>
    rw [hq] at hallowed
    obtain ⟨rfl, hpoints⟩ := hallowed
    have hmade := (hR.made i dir (hq ▸ rfl)).1
    have hholds := hR.holds i dir _ hq
    rw [List.take_length] at hholds
    obtain ⟨hnodup, hnames⟩ := credentialFiles_names (cfg i)
    refine ⟨fun hnil => ?_, ?_, dir, hmade, hholds⟩
    · have hfiles := hpoints.names
      rw [hnil] at hfiles
      unfold credentialFileNames at hfiles
      split at hfiles <;> cases hfiles
    · rw [filesRead_of_pointsTo (hmade.space hspace) hpoints, List.map_map]
      refine List.map_congr_left fun f hf => ?_
      exact hholds.node_eq hnodup (hnames f hf) hmade.ne_nil hf

/-- Whether a program is about to open a connection. -/
def atNewConnect : Prog ConnectSig (Except GoError ConnRef) → Bool
  | .call (.newConnect _) _ => true
  | _ => false

theorem exists_of_atNewConnect {p : Prog ConnectSig (Except GoError ConnRef)}
    (h : atNewConnect p = true) : ∃ uri k, p = .call (.newConnect uri) k := by
  cases p with
  | done a => cases h
  | call o k =>
    cases o with
    | newConnect uri => exact ⟨uri, k, rfl⟩
    | mkdirTemp dir pattern => cases h
    | file o => cases h
    | removeAll path => cases h

/-- Two configurations with certificates, for a host each. -/
def twoConfigs (b : Bool) : InfraConfig := if b then tlsConfig 3 else tlsConfig 4

/-- Before either is connected to. -/
def twoConnections : Pool Bool Files ConnectSig (Except GoError ConnRef) :=
  ⟨tempFiles, fun _ => .done (.ok ⟨0⟩)⟩

/-- Both are being connected to at once, and one of them has come to the call of
libvirt. -/
theorem connections_read_their_own_credentials_two :
    ∃ p uri k, Pool.Reach (connectSem (ascii "/tmp")) (connectMenu verbatimURL twoConfigs)
        (Foreign (ascii "/tmp")) (fun _ _ => True) twoConnections p
      ∧ p.prog true = .call (.newConnect uri) k
      ∧ (filesRead transportTLS (libvirtParameters uri)).map
          (fun path => p.state.node (cleanElements path))
        = [some (.file ([1], 0o600)), some (.file ([2], 0o600)), some (.file ([3], 0o600))]
      ∧ ∃ dir, Made (ascii "/tmp") dir
        ∧ HoldsFiles p.state (cleanElements dir) (tlsConfig 3).credentialFiles := by
  have hplay : (Pool.play (connectStep (ascii "/tmp")) twoConnections
      [.start true (connect verbatimURL (twoConfigs true)).run,
        .start false (connect verbatimURL (twoConfigs false)).run,
        .call true { random := ascii "17" }, .call false { random := ascii "18" },
        .call true {}, .call false {}, .call true {}, .call false {}, .call true {},
        .call false {}]).map (fun p => atNewConnect (p.prog true)) = some true := by
    decide +kernel
  obtain ⟨p, hp, hnext⟩ := Option.map_eq_some_iff.mp hplay
  obtain ⟨uri, k, hnext⟩ := exists_of_atNewConnect hnext
  have hreach : Pool.Reach (connectSem (ascii "/tmp")) (connectMenu verbatimURL twoConfigs)
      (Foreign (ascii "/tmp")) (fun _ _ => True) twoConnections p := by
    refine Pool.reach_of_play (fun i p hmem => ?_) hp
    simp only [List.mem_cons, List.not_mem_nil, or_false, reduceCtorEq,
      Pool.Move.start.injEq] at hmem
    rcases hmem with ⟨rfl, rfl⟩ | ⟨rfl, rfl⟩ <;> rfl
  obtain ⟨-, hread, hholds⟩ := connections_read_their_own_credentials (by decide) (by decide)
    (fun _ => ⟨_, rfl⟩) hreach hnext (fun h => (by cases h))
  refine ⟨p, uri, k, hreach, hnext, ?_, hholds⟩
  have htransport : uriTransport (utf8 (twoConfigs true).uri) = transportTLS := by decide +kernel
  rw [htransport] at hread
  refine hread.trans ?_
  have hfiles : (twoConfigs true).credentialFiles = TLSCredentials.files ⟨[1], [2], [3]⟩ := by
    rw [InfraConfig.credentialFiles, htransport]
    rfl
  rw [hfiles]
  rfl

end SideBySide

end LibvirtProvider

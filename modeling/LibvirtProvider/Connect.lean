import LibvirtProvider.FileTree
import LibvirtProvider.Interaction
import LibvirtProvider.Paths
import LibvirtProvider.Provider

/-!
# Opening a connection

The model of `connect`. Where a configuration has credentials, they are
written to a directory made for this one call, libvirt is pointed there by
parameters of the URI and reads them while the connection is opened, and a
deferred call removes the directory.

Files with private keys are to go away. Whichever call fails, a run leaves the
file system as it was, unless the removal itself fails
(`connect_leaves_no_files`). This rests on `os.MkdirTemp` returning a
directory that was not there before, and on everything being written there:
what a run can do is said by a monitor (`connectMonitor`), call by call.
-/

namespace LibvirtProvider

open Interaction QueryText

/-! ## The source -/

/-- The bytes of a string. The configuration has its URI as a string, and the
query is a matter of bytes. -/
def utf8 (s : String) : Text := s.toUTF8.data.toList

def credentialsDirPattern : Text := ascii "libvirt-credentials-"

/-- What `connect` calls. -/
inductive ConnectOp where
  | mkdirTemp (dir pattern : Text)
  | file (o : FileOp)
  | removeAll (path : Text)
  | newConnect (uri : Text)

/-- The signature of its calls. -/
def ConnectSig : Signature where
  Op := ConnectOp
  Ans
    | .mkdirTemp _ _ => Except GoError Text
    | .file _ => Except GoError Unit
    | .removeAll _ => Except GoError Unit
    | .newConnect _ => Except GoError ConnRef

abbrev ConnectM := ExceptT GoError (Prog ConnectSig)

/-- `openConnection`. This is where libvirt reads the credentials, and it does
not look at them again afterwards. -/
def openConnection (uri : Text) : ConnectM ConnRef :=
  ExceptT.adapt (.wrap "connect to libvirt")
    (ExceptT.mk (Prog.perform (σ := ConnectSig) (.newConnect uri)))

/-- `defer os.RemoveAll(dir)`: the call is made on every way out, and its
error is dropped. Nobody learns that a key was left behind. -/
def deferRemoveAll {α : Type} (dir : Text) (body : ConnectM α) : ConnectM α :=
  ExceptT.mk do
    let r ← body.run
    let _ : Except GoError Unit ← Prog.perform (σ := ConnectSig) (.removeAll dir)
    pure r

/-- A program that works on files, as a part of one that makes other calls as
well. -/
def onFiles {α : Type} (p : FileM α) : ConnectM α :=
  ExceptT.mk (p.run.interp fun o => Prog.perform (σ := ConnectSig) (.file o))

/-- `connect`. Without credentials the URI is used as it is, and no file is
written. With them the directory is made first, and from then on every way out
goes through its removal. -/
def connect (lib : NetURL) (cfg : InfraConfig) : ConnectM ConnRef :=
  match cfg.credentials with
  | none => openConnection (utf8 cfg.uri)
  | some credentials => do
    let dir : Text ← ExceptT.adapt (.wrap "create credentials dir")
      (ExceptT.mk (Prog.perform (σ := ConnectSig) (.mkdirTemp [] credentialsDirPattern)))
    deferRemoveAll dir do
      let uri ← onFiles (credentials.connectionURI lib (utf8 cfg.uri) dir)
      openConnection uri

/-! ## The file system

A path leads to what its elements say, with `.` and `..` worked out; there are
no symbolic links. The paths here all begin with the directory for temporary
files, so it is the same to them where a relative path starts from. -/

/-- The files, with their modes. -/
abbrev Files := FileTree Text (Bytes × ℕ)

/-- A directory or a file at a path: in a directory that is there, and not in
the place of one. A file in the place of a file replaces it. -/
def Files.create (fs : Files) (path : Text) (n : FileNode (Bytes × ℕ)) : Option Files :=
  match cleanElements path with
  | [] => none
  | name :: dir =>
    if h : fs.node dir = some .dir ∧ fs.node (name :: dir) ≠ some .dir then
      some (fs.put name dir n h.1 h.2)
    else none

/-- `joinPath` of `os.MkdirTemp`. -/
def joinPath (dir name : Text) : Text :=
  if dir.getLast? = some '/'.toUInt8 then dir ++ name else dir ++ '/'.toUInt8 :: name

/-- A decimal digit. -/
def isDecimalDigit (c : UInt8) : Bool := '0'.toUInt8 ≤ c ∧ c ≤ '9'.toUInt8

/-- **What is left open**: whether a call fails, the random number in the name
of a temporary directory, how much of a file a failed write leaves behind if
it has opened it, what a failed removal has removed, and where a connection
leads. -/
structure ConnectChoice where
  fault : Option GoError := none
  random : Text := []
  written : Option ℕ := none
  removed : List Text := []
  conn : ConnRef := ⟨0⟩

/-- **The calls on the file system**, where temporary files are in `tempDir`.
`os.MkdirTemp` tries names until it has one that is not there. An open file
that is written keeps the mode it has. -/
def connectStep (tempDir : Text) (fs : Files) :
    (o : ConnectSig.Op) → ConnectChoice → Option (ConnectSig.Ans o × Files)
  | .mkdirTemp dir pattern, c =>
    match c.fault with
    | some err => some (.error err, fs)
    | none =>
      let path := joinPath (if dir = [] then tempDir else dir) (pattern ++ c.random)
      if c.random.all isDecimalDigit ∧ fs.node (cleanElements path) = none then
        (fs.create path .dir).map fun fs' => (.ok path, fs')
      else none
  | .file (.writeFile path data perm), c =>
    let mode :=
      match fs.node (cleanElements path) with
      | some (.file old) => old.2
      | _ => perm
    match c.fault, c.written with
    | none, _ => (fs.create path (.file (data, mode))).map fun fs' => (.ok (), fs')
    | some err, none => some (.error err, fs)
    | some err, some n =>
      (fs.create path (.file (data.take n, mode))).map fun fs' => (.error err, fs')
  | .removeAll path, c =>
    match c.fault with
    | none => some (.ok (), fs.remove [cleanElements path])
    | some err => some (.error err, fs.remove (c.removed.map (· :: cleanElements path)))
  | .newConnect _, c =>
    match c.fault with
    | some err => some (.error err, fs)
    | none => some (.ok c.conn, fs)

/-- What the calls mean, over every choice. -/
def connectSem (tempDir : Text) : Sem ConnectSig Files := Prog.semOf (connectStep tempDir)

/-! ## The directory of a call -/

section Directories

variable {dir name : Text}

/-- A directory made in a directory. -/
theorem cleanElements_joinPath (h : FileName name) (hdir : dir ≠ []) :
    cleanElements (joinPath dir name) = name :: cleanElements dir := by
  unfold joinPath
  split
  · rename_i hlast
    obtain ⟨above, rfl⟩ := List.getLast?_eq_some_iff.mp hlast
    by_cases habove : above = []
    · subst habove
      show cleanElements ([] ++ '/'.toUInt8 :: name) = _
      unfold cleanElements
      rw [List.splitOn_append_cons_self, List.splitOn_eq_singleton h.slash, List.foldl_append]
      exact h.cleanElement _ _
    · have hslash : cleanElements (above ++ ['/'.toUInt8])
          = cleanElements above := by
        obtain ⟨c, above, rfl⟩ := List.exists_cons_of_ne_nil habove
        unfold cleanElements
        rw [List.splitOn_append_cons_self, List.foldl_append]
        rfl
      rw [hslash, List.append_assoc]
      exact h.cleanElements habove
  · exact h.cleanElements hdir

end Directories

/-- **A directory for credentials**, as `os.MkdirTemp` names it: directly in
the directory for temporary files, with the pattern and digits for a name. All
such directories are at one depth. -/
def Made (tempDir dir : Text) : Prop :=
  ∃ random : Text, random.all isDecimalDigit = true
    ∧ dir = joinPath tempDir (credentialsDirPattern ++ random)

section Made

variable {tempDir dir random : Text}

theorem fileName_of_random (h : random.all isDecimalDigit = true) :
    FileName (credentialsDirPattern ++ random) where
  slash hmem := by
    rcases List.mem_append.mp hmem with hmem | hmem
    · exact absurd hmem (by decide)
    · exact absurd (List.all_eq_true.mp h _ hmem) (by decide)
  nonempty := List.append_ne_nil_of_left_ne_nil (by decide) _
  dot heq := by cases heq
  dots heq := by cases heq

theorem Made.ne_nil (h : Made tempDir dir) : dir ≠ [] := by
  obtain ⟨random, hrandom, rfl⟩ := h
  have hname := (fileName_of_random hrandom).nonempty
  unfold joinPath
  split
  · exact List.append_ne_nil_of_right_ne_nil _ hname
  · exact List.append_ne_nil_of_right_ne_nil _ (List.cons_ne_nil _ _)

theorem Made.place (h : Made tempDir dir) (htemp : tempDir ≠ []) :
    ∃ name, credentialsDirPattern <+: name
      ∧ cleanElements dir = name :: cleanElements tempDir := by
  obtain ⟨random, hrandom, rfl⟩ := h
  exact ⟨_, List.prefix_append _ _, cleanElements_joinPath (fileName_of_random hrandom) htemp⟩

/-- There is no space in its path, unless in that of the directory for
temporary files. -/
theorem Made.space (h : Made tempDir dir) (htemp : ' '.toUInt8 ∉ tempDir) : ' '.toUInt8 ∉ dir := by
  obtain ⟨random, hrandom, rfl⟩ := h
  have hname : ' '.toUInt8 ∉ credentialsDirPattern ++ random := by
    intro hmem
    rcases List.mem_append.mp hmem with hmem | hmem
    · exact absurd hmem (by decide)
    · exact absurd (List.all_eq_true.mp hrandom _ hmem) (by decide)
  unfold joinPath
  split
  · exact fun hmem => (List.mem_append.mp hmem).elim htemp hname
  · refine fun hmem => (List.mem_append.mp hmem).elim htemp fun hmem => ?_
    exact List.not_mem_cons_of_ne_of_not_mem (by decide) hname hmem

end Made

/-! ## What a call of `connect` does -/

/-- The files for a transport. -/
def Credentials.filesFor (c : Credentials) (transport : Text) : List CredentialFile :=
  if transport = transportTLS then (c.tls.map TLSCredentials.files).getD []
  else if transport = transportLibSSH ∨ transport = transportLibSSH2 then
    (c.ssh.map SSHCredentials.files).getD []
  else []

/-- **The files that are to be written** for a configuration. There are none
without credentials, and none if the credentials are not those for the
transport, which is an error. -/
def InfraConfig.credentialFiles (cfg : InfraConfig) : List CredentialFile :=
  match cfg.credentials with
  | none => []
  | some c => c.filesFor (uriTransport (utf8 cfg.uri))

/-- **A URI that points libvirt to the files** in a directory: they are the
ones it asks for, and it is told so in the query. -/
structure PointsTo (cfg : InfraConfig) (dir uri : Text) : Prop where
  names : (cfg.credentialFiles.map fun f => ascii f.name)
    = credentialFileNames (uriTransport (utf8 cfg.uri))
  query : uriQuery uri
    = encode ((credentialSettings (uriTransport (utf8 cfg.uri)) dir).foldl setValue
      (parseQuery (uriQuery (utf8 cfg.uri))))

/-- **How far a call has got**: there is no directory, some files are in it,
it is only to be removed, or its removal failed. -/
inductive ConnectStage where
  | out
  | writing (dir : Text) (n : ℕ)
  | closing (dir : Text)
  | left (dir : Text)

namespace ConnectStage

/-- The directory that is in use. -/
def At (dir : Text) : ConnectStage → Prop
  | .writing d _ => d = dir
  | .closing d => d = dir
  | _ => False

/-- The stage after a call. Calls that are not allowed in a stage leave it as
it is; that they are not made is said by the monitor. -/
def next : ConnectStage → (o : ConnectSig.Op) → ConnectSig.Ans o → ConnectStage
  | .out, .mkdirTemp _ _, .ok dir => .writing dir 0
  | .writing dir n, .file _, .ok _ => .writing dir (n + 1)
  | .writing dir _, .file _, .error _ => .closing dir
  | .writing dir _, .newConnect _, _ => .closing dir
  | .writing _ _, .removeAll _, .ok _ => .out
  | .writing dir _, .removeAll _, .error _ => .left dir
  | .closing _, .removeAll _, .ok _ => .out
  | .closing dir, .removeAll _, .error _ => .left dir
  | q, _, _ => q

/-- The directory in use is removed, or left. -/
theorem At.next_removeAll {q : ConnectStage} {dir : Text} (h : q.At dir) :
    q.next (.removeAll dir) (.ok ()) = .out
      ∧ ∀ err, q.next (.removeAll dir) (.error err) = .left dir := by
  cases q with
  | out => exact h.elim
  | left d => exact h.elim
  | writing d n =>
    obtain rfl : d = dir := h
    exact ⟨rfl, fun _ => rfl⟩
  | closing d =>
    obtain rfl : d = dir := h
    exact ⟨rfl, fun _ => rfl⟩

end ConnectStage

/-- **What `connect` is to keep to**: the credentials go into the directory it
made, one file after the other, with the mode for keys; libvirt is called when
all of them are there, with a URI that points to them; then the directory is
removed. -/
def connectMonitor (cfg : InfraConfig) : Monitor ConnectSig ConnectStage where
  next := ConnectStage.next
  allows
    | .out, .mkdirTemp dir pattern => dir = [] ∧ pattern = credentialsDirPattern
    | .out, .newConnect uri => cfg.credentials = none ∧ uri = utf8 cfg.uri
    | .writing dir n, .file (.writeFile path data perm) =>
      ∃ f, cfg.credentialFiles[n]? = some f ∧ path = filepathJoin dir (ascii f.name)
        ∧ data = f.data ∧ perm = credentialsFileMode
    | .writing dir n, .newConnect uri => n = cfg.credentialFiles.length ∧ PointsTo cfg dir uri
    | .writing dir _, .removeAll path => path = dir
    | .closing dir, .removeAll path => path = dir
    | _, _ => False

section Obeys

variable {lib : NetURL} {cfg : InfraConfig} {dir : Text} {α β : Type}

theorem onFiles_bind (x : FileM α) (f : α → FileM β) :
    onFiles (x >>= f) = onFiles x >>= fun a => onFiles (f a) := by
  refine ExceptT.ext ?_
  rw [ExceptT.run_bind]
  refine (Prog.interp_bind x.run _).trans (congrArg (x.run.interp _ >>= ·) ?_)
  funext r
  cases r <;> rfl

theorem writeCredentialFiles_obeys (written : List CredentialFile) {rest : List CredentialFile}
    (h : cfg.credentialFiles = written ++ rest) :
    (onFiles (writeCredentialFiles dir rest)).run.Obeys (connectMonitor cfg)
      (fun q r => (r = .ok () → q = .writing dir cfg.credentialFiles.length)
        ∧ ∀ e, r = .error e → q = .closing dir) (.writing dir written.length) := by
  induction rest generalizing written with
  | nil =>
    rw [List.append_nil] at h
    exact ⟨fun _ => by rw [h], fun e he => by cases he⟩
  | cons f rest ih =>
    have hallowed : (connectMonitor cfg).allows (.writing dir written.length)
        (.file (.writeFile (filepathJoin dir (ascii f.name)) f.data credentialsFileMode)) :=
      ⟨f, by rw [h, List.getElem?_append_right le_rfl, Nat.sub_self]; rfl, rfl, rfl, rfl⟩
    unfold writeCredentialFiles
    rw [onFiles_bind]
    refine Prog.obeys_bind_except.mpr (Prog.obeys_adapt.mpr ⟨hallowed, fun r => ?_⟩)
    cases r with
    | error e => exact ⟨fun he => (by cases he), fun _ _ => rfl⟩
    | ok _ =>
      have hrest := ih (written ++ [f]) (by rw [h, List.append_assoc]; rfl)
      rw [List.length_append] at hrest
      exact hrest

/-- All files are written, or an error is on its way. -/
theorem writeAll_obeys {files : List CredentialFile} {params : List (Text × Text)}
    {Φ : ConnectStage → Except GoError (List (Text × Text)) → Prop}
    (hfiles : cfg.credentialFiles = files)
    (hok : Φ (.writing dir cfg.credentialFiles.length) (.ok params))
    (herr : ∀ q e, ConnectStage.At dir q → Φ q (.error e)) :
    (onFiles (do writeCredentialFiles dir files; pure params : FileM _)).run.Obeys
      (connectMonitor cfg) Φ (.writing dir 0) := by
  rw [onFiles_bind]
  refine Prog.obeys_bind_except.mpr ((writeCredentialFiles_obeys []
    hfiles).mono fun q r h => ?_)
  cases r with
  | error e => exact herr q e (by rw [h.2 e rfl]; rfl)
  | ok _ =>
    rw [h.1 rfl]
    exact hok

theorem setParameters_obeys {c : Credentials} (hc : cfg.credentials = some c) {scheme : Text}
    (hscheme : transport scheme ≠ [] → transport scheme = uriTransport (utf8 cfg.uri))
    (params : List (Text × Text)) :
    (onFiles (c.setParameters scheme dir params)).run.Obeys (connectMonitor cfg)
      (fun q r => match r with
        | .error _ => ConnectStage.At dir q
        | .ok params' => q = .writing dir cfg.credentialFiles.length ∧ transport scheme ≠ []
          ∧ params' = (credentialSettings (transport scheme) dir).foldl setValue params
          ∧ (cfg.credentialFiles.map fun f => ascii f.name)
            = credentialFileNames (transport scheme)) (.writing dir 0) := by
  have hfiles (h : transport scheme ≠ []) :
      cfg.credentialFiles = c.filesFor (transport scheme) := by
    rw [InfraConfig.credentialFiles, hc, hscheme h]
  unfold Credentials.filesFor at hfiles
  unfold Credentials.setParameters credentialSettings credentialFileNames
  split
  · rename_i htls
    rw [htls] at hfiles ⊢
    cases htlsKeys : c.tls with
    | none => exact rfl
    | some tls =>
      rw [if_pos rfl, htlsKeys] at hfiles
      have hfiles := hfiles (by decide)
      refine writeAll_obeys hfiles ⟨rfl, by decide, rfl, ?_⟩ fun _ _ h => h
      rw [hfiles]
      rfl
  · rename_i htls
    split
    · rename_i hssh
      have hne : transport scheme ≠ [] := by
        rcases hssh with h | h <;> rw [h] <;> decide
      cases hsshKeys : c.ssh with
      | none => exact rfl
      | some ssh =>
        rw [if_neg htls, if_pos hssh, hsshKeys] at hfiles
        refine writeAll_obeys (hfiles hne) ⟨rfl, hne, ?_, ?_⟩ fun _ _ h => h
        · rfl
        · rw [hfiles hne]
          rfl
    · exact rfl

/-- **The URI is made**: with all files written and pointing to them. If it is
not, the directory is in use all the same, and is to be removed. -/
theorem connectionURI_obeys {c : Credentials} (hc : cfg.credentials = some c) :
    (onFiles (c.connectionURI lib (utf8 cfg.uri) dir)).run.Obeys (connectMonitor cfg)
      (fun q r => match r with
        | .error _ => ConnectStage.At dir q
        | .ok uri => q = .writing dir cfg.credentialFiles.length ∧ PointsTo cfg dir uri)
      (.writing dir 0) := by
  unfold Credentials.connectionURI
  cases hparse : URL.parse lib (utf8 cfg.uri) with
  | error err => exact rfl
  | ok u =>
    have hscheme (h : transport u.scheme ≠ []) := URL.parse_transport hparse h
    rw [onFiles_bind]
    refine Prog.obeys_bind_except.mpr ((setParameters_obeys hc (fun h => (hscheme h).1)
      _).mono fun q r h => ?_)
    cases r with
    | error err => exact h
    | ok params =>
      obtain ⟨rfl, hne, rfl, hnames⟩ := h
      obtain ⟨htransport, hquery, hplain, hhier⟩ := hscheme hne
      refine ⟨rfl, ?_, ?_⟩
      · rw [hnames, htransport]
      · rw [← htransport, ← hquery]
        refine URL.uriQuery_string hplain hhier ?_ ?_
        · exact notMem_encode (by decide) (by decide) (by decide) (by decide) (by decide) _
        · refine (settings_credentialSettings _ dir).encode_ne_nil ?_ _
          unfold credentialSettings
          split <;> exact List.cons_ne_nil _ _

/-- **What `connect` keeps to**, and that it ends without a directory, or with
one whose removal failed. This is all that is used of the program in what
follows, here and in `Connections`. -/
theorem connect_obeys (lib : NetURL) (cfg : InfraConfig) :
    (connect lib cfg).run.Obeys (connectMonitor cfg)
      (fun q _ => q = .out ∨ ∃ dir, q = .left dir) .out := by
  have hremove {q : ConnectStage} {dir : Text} (hq : q.At dir) (r : Except GoError ConnRef) :
      (Prog.perform (σ := ConnectSig) (.removeAll dir) >>= fun _ => pure r).Obeys
        (connectMonitor cfg) (fun q _ => q = .out ∨ ∃ dir, q = .left dir) q := by
    cases q with
    | out => exact hq.elim
    | left d => exact hq.elim
    | writing d n =>
      refine ⟨hq.symm, fun answer => ?_⟩
      cases answer with
      | error e => exact Or.inr ⟨d, rfl⟩
      | ok _ => exact Or.inl rfl
    | closing d =>
      refine ⟨hq.symm, fun answer => ?_⟩
      cases answer with
      | error e => exact Or.inr ⟨d, rfl⟩
      | ok _ => exact Or.inl rfl
  unfold connect
  cases hc : cfg.credentials with
  | none => exact Prog.obeys_adapt.mpr ⟨⟨hc, rfl⟩, fun _ => Or.inl rfl⟩
  | some c =>
    refine Prog.obeys_bind_except.mpr (Prog.obeys_adapt.mpr ⟨⟨rfl, rfl⟩, fun r => ?_⟩)
    cases r with
    | error e => exact Or.inl rfl
    | ok dir =>
      refine Prog.obeys_bind.mpr (Prog.obeys_bind_except.mpr
        ((connectionURI_obeys hc).mono fun q r h => ?_))
      cases r with
      | error e => exact hremove h _
      | ok uri =>
        obtain ⟨rfl, hpoints⟩ := h
        exact Prog.obeys_adapt.mpr ⟨⟨rfl, hpoints⟩, fun r => hremove (q := .closing dir) rfl _⟩

end Obeys

/-! ## What the calls do to the files -/

section Calls

variable {tempDir path dir pattern : Text} {fs fs' : Files}

theorem Files.create_spec {n : FileNode (Bytes × ℕ)} (h : fs.create path n = some fs') :
    fs'.node (cleanElements path) = some n
      ∧ ∀ k, k ≠ cleanElements path → fs'.node k = fs.node k := by
  unfold Files.create at h
  split at h
  · cases h
  · rename_i name dir hpath
    split at h
    · cases h
      rw [hpath]
      exact ⟨FileTree.node_put_self, fun k hk => FileTree.node_put_of_ne hk⟩
    · cases h

/-- **A directory is made**, where there was nothing, and it is the only thing
that is. Or the call fails and nothing is. -/
theorem mkdirTemp_spec {r : Except GoError Text}
    (h : connectSem tempDir fs (.mkdirTemp [] credentialsDirPattern) r fs') :
    (∃ e, r = .error e) ∧ fs' = fs
    ∨ ∃ dir, r = .ok dir ∧ Made tempDir dir ∧ fs.node (cleanElements dir) = none
      ∧ fs'.node (cleanElements dir) = some .dir
      ∧ ∀ k, k ≠ cleanElements dir → fs'.node k = fs.node k := by
  obtain ⟨c, hc⟩ := h
  unfold connectStep at hc
  dsimp only at hc
  split at hc
  · cases hc
    exact Or.inl ⟨⟨_, rfl⟩, rfl⟩
  · rw [if_pos rfl] at hc
    split at hc
    · rename_i hfresh
      obtain ⟨fs₁, hcreate, hr⟩ := Option.map_eq_some_iff.mp hc
      cases hr
      obtain ⟨hnew, hothers⟩ := Files.create_spec hcreate
      exact Or.inr ⟨_, rfl, ⟨c.random, hfresh.1, rfl⟩, hfresh.2, hnew, hothers⟩
    · cases hc

/-- **A file is written**, or a part of it; nothing else changes. A new file
has the mode that was asked for, an old one would keep its own. -/
theorem writeFile_spec {data : Bytes} {perm : ℕ} {r : Except GoError Unit}
    (h : connectSem tempDir fs (.file (.writeFile path data perm)) r fs') :
    (∀ k, k ≠ cleanElements path → fs'.node k = fs.node k)
      ∧ (r = .ok () → fs.node (cleanElements path) = none →
        fs'.node (cleanElements path) = some (.file (data, perm))) := by
  obtain ⟨c, hc⟩ := h
  unfold connectStep at hc
  dsimp only at hc
  split at hc
  · obtain ⟨fs₁, hcreate, hr⟩ := Option.map_eq_some_iff.mp hc
    cases hr
    obtain ⟨hnew, hothers⟩ := Files.create_spec hcreate
    refine ⟨hothers, fun _ hnone => ?_⟩
    rw [hnew, hnone]
  · cases hc
    exact ⟨fun _ _ => rfl, fun hr => (by cases hr)⟩
  · obtain ⟨fs₁, hcreate, hr⟩ := Option.map_eq_some_iff.mp hc
    cases hr
    exact ⟨(Files.create_spec hcreate).2, fun hr => (by cases hr)⟩

/-- **A directory is removed**, or a part of what is in it. A removal that
fails has not removed anything outside, and may have removed nothing. -/
theorem removeAll_spec {r : Except GoError Unit}
    (h : connectSem tempDir fs (.removeAll path) r fs') :
    (∀ k, ¬ cleanElements path <:+ k → fs'.node k = fs.node k)
      ∧ (r = .ok () → ∀ k, cleanElements path <:+ k → fs'.node k = none) := by
  obtain ⟨c, hc⟩ := h
  unfold connectStep at hc
  dsimp only at hc
  split at hc
  · cases hc
    refine ⟨fun k hk => FileTree.node_remove_of_not fun root hroot => ?_, fun _ k hk => ?_⟩
    · rw [List.mem_singleton.mp hroot]
      exact hk
    · exact if_pos ⟨_, List.mem_singleton_self _, hk⟩
  · cases hc
    refine ⟨fun k hk => FileTree.node_remove_of_not fun root hroot => ?_, fun hr => (by cases hr)⟩
    obtain ⟨name, -, rfl⟩ := List.mem_map.mp hroot
    exact fun hsuffix => hk ((List.suffix_cons name _).trans hsuffix)

theorem newConnect_spec {uri : Text} {r : Except GoError ConnRef}
    (h : connectSem tempDir fs (.newConnect uri) r fs') : fs' = fs := by
  obtain ⟨c, hc⟩ := h
  unfold connectStep at hc
  dsimp only at hc
  split at hc
  · cases hc
    rfl
  · cases hc
    rfl

end Calls

/-! ## The files of a configuration -/

section Files

variable (cfg : InfraConfig)

theorem credentialFiles_cases : cfg.credentialFiles = []
    ∨ (∃ tls : TLSCredentials, cfg.credentialFiles = tls.files)
    ∨ ∃ ssh : SSHCredentials, cfg.credentialFiles = ssh.files := by
  unfold InfraConfig.credentialFiles
  cases cfg.credentials with
  | none => exact Or.inl rfl
  | some c =>
    dsimp only
    unfold Credentials.filesFor
    split
    · cases c.tls with
      | none => exact Or.inl rfl
      | some tls => exact Or.inr (Or.inl ⟨tls, rfl⟩)
    · split
      · cases c.ssh with
        | none => exact Or.inl rfl
        | some ssh => exact Or.inr (Or.inr ⟨ssh, rfl⟩)
      · exact Or.inl rfl

/-- Their names are different, and are names of files. So no file is written
over another one, nor outside of the directory. -/
theorem credentialFiles_names :
    (cfg.credentialFiles.map fun f => ascii f.name).Nodup
      ∧ ∀ f ∈ cfg.credentialFiles, FileName (ascii f.name) := by
  have hname (name : Text) (h : '/'.toUInt8 ∉ name ∧ name ≠ [] ∧ name ≠ ascii "."
      ∧ name ≠ ascii "..") : FileName name := ⟨h.1, h.2.1, h.2.2.1, h.2.2.2⟩
  rcases credentialFiles_cases cfg with h | ⟨tls, h⟩ | ⟨ssh, h⟩
  · rw [h]
    exact ⟨List.nodup_nil, fun f hf => absurd hf List.not_mem_nil⟩
  · rw [h]
    refine ⟨?_, ?_⟩
    · show [ascii "cacert.pem", ascii "clientcert.pem", ascii "clientkey.pem"].Nodup
      decide
    · simp only [TLSCredentials.files, List.mem_cons, List.not_mem_nil, or_false,
        forall_eq_or_imp, forall_eq]
      exact ⟨hname _ (by decide), hname _ (by decide), hname _ (by decide)⟩
  · rw [h]
    refine ⟨?_, ?_⟩
    · show [ascii "id_key", ascii "known_hosts"].Nodup
      decide
    · simp only [SSHCredentials.files, List.mem_cons, List.not_mem_nil, or_false,
        forall_eq_or_imp, forall_eq]
      exact ⟨hname _ (by decide), hname _ (by decide)⟩

end Files

/-! ## Nothing is left -/

section Leaves

variable {tempDir : Text} {fs₀ fs fs' : Files} {lib : NetURL} {cfg : InfraConfig}

/-- **What a call in progress has touched**: its directory, which was not
there before, and nothing outside. Where it has none, everything is as it was
at the start; where the removal has failed, the failure is in the trace. -/
structure Untouched (tempDir : Text) (fs₀ : Files) (q : ConnectStage)
    (s : Files × List (Event ConnectSig)) : Prop where
  out : q = .out → s.1 = fs₀
  inside : ∀ dir, q.At dir → Made tempDir dir ∧ fs₀.node (cleanElements dir) = none
  outside : ∀ dir, (q.At dir ∨ q = .left dir) →
    ∀ k, ¬ cleanElements dir <:+ k → s.1.node k = fs₀.node k
  left : ∀ dir, q = .left dir → Made tempDir dir
    ∧ ∃ err, ⟨.removeAll dir, (.error err : Except GoError Unit)⟩ ∈ s.2

namespace Untouched

variable {q : ConnectStage} {s s' : Files × List (Event ConnectSig)} {dir : Text}

/-- Something happens in the directory: a file is written, whole or in part,
or libvirt is called. -/
theorem within (h : Untouched tempDir fs₀ q s) (dir : Text) (hq : q.At dir) {q' : ConnectStage}
    (hout : q' ≠ .out) (hat : ∀ d, q'.At d → d = dir) (hleft : ∀ d, q' ≠ .left d)
    (hs : ∀ k, ¬ cleanElements dir <:+ k → s'.1.node k = s.1.node k) :
    Untouched tempDir fs₀ q' s' where
  out hq' := absurd hq' hout
  inside d hd := hat d hd ▸ h.inside dir hq
  outside d hd k hk := by
    obtain rfl := hat d (hd.resolve_right (hleft d))
    rw [hs k hk, h.outside d (Or.inl hq) k hk]
  left d hd := absurd hd (hleft d)

/-- The directory is removed, or not. If it is, the files are those of the
start, as there was nothing in its place. -/
theorem removeAll (h : Untouched tempDir fs₀ q s) (hq : q.At dir) {r : Except GoError Unit}
    (hs : Prog.recorded (connectSem tempDir) (fun history ev => ev :: history) s
      (.removeAll dir) r s') :
    Untouched tempDir fs₀ (q.next (.removeAll dir) r) s' := by
  obtain ⟨hmade, hnone⟩ := h.inside dir hq
  obtain ⟨hkept, hgone⟩ := removeAll_spec hs.1
  have houtside : ∀ k, ¬ cleanElements dir <:+ k → s'.1.node k = fs₀.node k := fun k hk =>
    (hkept k hk).trans (h.outside dir (Or.inl hq) k hk)
  cases r with
  | ok _ =>
    rw [hq.next_removeAll.1]
    refine ⟨fun _ => FileTree.ext_node fun k => ?_, fun d hd => hd.elim, fun d hd => ?_,
      fun d hd => (by cases hd)⟩
    · by_cases hk : cleanElements dir <:+ k
      · rw [hgone rfl k hk, FileTree.node_eq_none_of_suffix hnone hk]
      · exact houtside k hk
    · exact hd.elim False.elim fun hd => (by cases hd)
  | error err =>
    rw [hq.next_removeAll.2]
    refine ⟨fun hq => (by cases hq), fun d hd => hd.elim, fun d hd => ?_, fun d hd => ?_⟩
    · rcases hd with hd | hd
      · exact hd.elim
      · cases hd
        exact houtside
    · cases hd
      exact ⟨hmade, err, by rw [hs.2]; exact List.mem_cons_self⟩

/-- **One call** that the monitor allows keeps track of what was touched. The
cases are those of the monitor, and not those of the program. -/
theorem step {o : ConnectSig.Op} {r : ConnectSig.Ans o}
    (h : Untouched tempDir fs₀ q s) (hallowed : (connectMonitor cfg).allows q o)
    (hs : Prog.recorded (connectSem tempDir) (fun history ev => ev :: history) s o r s') :
    Untouched tempDir fs₀ (q.next o r) s' := by
  cases q with
  | left d => exact hallowed.elim
  | out =>
    cases o with
    | file o => exact hallowed.elim
    | removeAll path => exact hallowed.elim
    | newConnect uri =>
      rw [show ConnectStage.out.next (.newConnect uri) r = .out from rfl]
      exact ⟨fun hq => (newConnect_spec hs.1).trans (h.out hq), fun d hd => hd.elim,
        fun d hd => hd.elim False.elim fun hd => (by cases hd), fun d hd => (by cases hd)⟩
    | mkdirTemp d pattern =>
      obtain ⟨rfl, rfl⟩ := hallowed
      rcases mkdirTemp_spec hs.1 with ⟨⟨e, rfl⟩, hfs⟩ | ⟨dir, rfl, hmade, hnone, -, hothers⟩
      · exact ⟨fun hq => hfs.trans (h.out hq), fun d hd => hd.elim,
          fun d hd => hd.elim False.elim fun hd => (by cases hd), fun d hd => (by cases hd)⟩
      · rw [h.out rfl] at hnone hothers
        refine ⟨fun hq => (by cases hq), fun d hd => ?_, fun d hd k hk => ?_,
          fun d hd => (by cases hd)⟩
        · cases hd
          exact ⟨hmade, hnone⟩
        · obtain rfl : dir = d := hd.elim id fun hd => (by cases hd)
          refine hothers k ?_
          rintro rfl
          exact hk (List.suffix_refl _)
  | closing dir =>
    cases o with
    | mkdirTemp d pattern => exact hallowed.elim
    | file o => exact hallowed.elim
    | newConnect uri => exact hallowed.elim
    | removeAll path =>
      obtain rfl : path = dir := hallowed
      exact h.removeAll rfl hs
  | writing dir n =>
    cases o with
    | mkdirTemp d pattern => exact hallowed.elim
    | removeAll path =>
      obtain rfl : path = dir := hallowed
      exact h.removeAll rfl hs
    | newConnect uri =>
      refine h.within dir rfl (fun hq => (by cases hq)) (fun d hd => hd.symm)
        (fun d hd => (by cases hd)) fun k _ => ?_
      rw [newConnect_spec hs.1]
    | file o =>
      obtain ⟨path, data, perm⟩ := o
      obtain ⟨f, hf, rfl, rfl, rfl⟩ := hallowed
      have hname := (credentialFiles_names cfg).2 f (List.mem_of_getElem? hf)
      have hpath := cleanElements_filepathJoin hname (h.inside dir rfl).1.ne_nil
      have hkept : ∀ k, ¬ cleanElements dir <:+ k → s'.1.node k = s.1.node k := by
        intro k hk
        refine (writeFile_spec hs.1).1 k ?_
        rintro rfl
        exact hk (hpath ▸ List.suffix_cons _ _)
      cases r with
      | ok _ =>
        exact h.within dir rfl (fun hq => (by cases hq)) (fun d hd => hd.symm)
          (fun d hd => (by cases hd)) hkept
      | error e =>
        exact h.within dir rfl (fun hq => (by cases hq)) (fun d hd => hd.symm)
          (fun d hd => (by cases hd)) hkept

end Untouched

/-- **The credentials are removed.** Whatever its calls answer, a run of
`connect` leaves the file system as it was, or the removal of the directory it
made has failed; then it has touched nothing outside. A run here is one that
comes to its end: a process that is killed in the middle removes nothing. -/
theorem connect_leaves_no_files {tr : List (Event ConnectSig)}
    {r : Except GoError ConnRef}
    (h : Prog.Exec (connectSem tempDir) (connect lib cfg).run fs tr fs' r) :
    fs' = fs
    ∨ ∃ dir err, Made tempDir dir
      ∧ ⟨.removeAll dir, (.error err : Except GoError Unit)⟩ ∈ tr
      ∧ ∀ k, ¬ cleanElements dir <:+ k → fs'.node k = fs.node k := by
  have hrecorded : Prog.Exec (Prog.recorded (connectSem tempDir) fun history ev => ev :: history)
      (connect lib cfg).run (fs, []) tr (fs', _) r := Prog.exec_recorded.mpr ⟨h, rfl⟩
  have hstart : Untouched tempDir fs .out (fs, []) :=
    ⟨fun _ => rfl, fun d hd => hd.elim, fun d hd => hd.elim False.elim fun hd => (by cases hd),
      fun d hd => (by cases hd)⟩
  obtain ⟨q, hq, rfl | ⟨dir, rfl⟩⟩ := (connect_obeys lib cfg).exec
    (fun q s o r s' hR hallowed hs => hR.step hallowed hs) hstart hrecorded
  · exact Or.inl (hq.out rfl)
  · obtain ⟨hmade, err, hmem⟩ := hq.left dir rfl
    refine Or.inr ⟨dir, err, hmade, ?_, hq.outside dir (Or.inr rfl)⟩
    rw [List.foldl_flip_cons_eq_append', List.append_nil, List.mem_reverse] at hmem
    exact hmem

/-- A file system with a directory for temporary files. -/
def tempFiles : Files where
  node k := if k = [] ∨ k = [ascii "tmp"] then some .dir else none
  parent name dir h := by
    by_cases hk : name :: dir = [ascii "tmp"]
    · obtain ⟨-, rfl⟩ := List.cons.inj hk
      rfl
    · exact absurd (if_neg (not_or.mpr ⟨List.cons_ne_nil _ _, hk⟩)) h

/-- A configuration with TLS credentials. -/
def tlsConfig (key : UInt8) : InfraConfig where
  uri := "qemu+tls://libvirt.lab/system"
  basePool := "default"
  domainPool := "default"
  network := "default"
  credentials := some ⟨some ⟨[1], [2], [key]⟩, none⟩

/-- The second file is written in part only; the part that was written is
removed with the rest. -/
theorem connect_leaves_no_files_interrupted : ∃ tr fs' r,
    Prog.Exec (connectSem (ascii "/tmp")) (connect verbatimURL (tlsConfig 3)).run tempFiles tr
      fs' r
    ∧ tr.length = 4
    ∧ (fs' = tempFiles ∨ ∃ dir err, Made (ascii "/tmp") dir
      ∧ ⟨.removeAll dir, (.error err : Except GoError Unit)⟩ ∈ tr
      ∧ ∀ k, ¬ cleanElements dir <:+ k → fs'.node k = tempFiles.node k) := by
  have hlen : (Prog.runWith (connectStep (ascii "/tmp")) {}
      (connect verbatimURL (tlsConfig 3)).run tempFiles
      [{ random := ascii "17" }, {}, { fault := some (.text "disk full"), written := some 0 }]).map
      (fun x => x.1.length) = some 4 := by decide +kernel
  obtain ⟨⟨tr, fs', r⟩, hrun, hlen⟩ := Option.map_eq_some_iff.mp hlen
  have hexec := Prog.exec_of_runWith hrun
  exact ⟨tr, fs', r, hexec, hlen, connect_leaves_no_files hexec⟩

end Leaves

end LibvirtProvider

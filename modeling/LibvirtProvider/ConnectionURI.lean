import LibvirtProvider.Machine
import LibvirtProvider.QueryText

/-!
# Credentials in the connection URI

The model of `credentials.go` of the client. Before it connects, the client
writes the credentials to files in a directory of its own and adds parameters
to the URI that tell libvirt where they are. The other parameters of the URI
are to stay as they are.

Go reads the query string as a form and writes it as one; libvirt reads it
plainly. The two readings are those of `QueryText`. Strings are bytes here, as
they are in Go: an escape can stand for any byte.
-/

namespace LibvirtProvider

open Interaction QueryText

/-! ## `net/url` -/

/-- **The parts of `net/url` that the query does not meet**: what it makes of
the authority and path of a URL and of the fragment – an error, or the text it
writes them back as – and how it words an error. An authority and a path are
written back with `?` and `#` escaped. -/
structure NetURL where
  hier : Text → Text → Except GoError Text
  fragment : Text → Except GoError Text
  parseError : Text → GoError → GoError
  plain : ∀ scheme rest text, hier scheme rest = .ok text →
    '?'.toUInt8 ∉ text ∧ '#'.toUInt8 ∉ text

/-- `url.URL`. The authority and the path are one text here, and they and the
fragment are as they are written back. -/
structure URL where
  scheme : Text
  hier : Text
  forceQuery : Bool
  rawQuery : Text
  fragment : Text
  deriving DecidableEq, Repr

/-- A letter. -/
def isLetter (c : UInt8) : Bool :=
  ('a'.toUInt8 ≤ c ∧ c ≤ 'z'.toUInt8) ∨ ('A'.toUInt8 ≤ c ∧ c ≤ 'Z'.toUInt8)

/-- What else a scheme may have after its first letter. -/
def isSchemeExtra (c : UInt8) : Bool :=
  ('0'.toUInt8 ≤ c ∧ c ≤ '9'.toUInt8) ∨ c ∈ ascii "+-."

/-- The loop of `getScheme`, with the part of the text that is behind it. A
byte that no scheme has ends it without a scheme, and that is no error. -/
def getSchemeFrom (rawURL scanned : Text) : Text → Except GoError (Text × Text)
  | [] => .ok ([], rawURL)
  | c :: left =>
    if isLetter c then getSchemeFrom rawURL (scanned ++ [c]) left
    else if isSchemeExtra c then
      if scanned = [] then .ok ([], rawURL) else getSchemeFrom rawURL (scanned ++ [c]) left
    else if c = ':'.toUInt8 then
      if scanned = [] then .error (.text "missing protocol scheme") else .ok (scanned, left)
    else .ok ([], rawURL)

/-- `getScheme`. -/
def getScheme (rawURL : Text) : Except GoError (Text × Text) := getSchemeFrom rawURL [] rawURL

/-- `strings.ToLower`, for a scheme. -/
def toLower (s : Text) : Text :=
  s.map fun c => if 'A'.toUInt8 ≤ c ∧ c ≤ 'Z'.toUInt8 then c + 32 else c

namespace URL

variable (lib : NetURL)

/-- `parse`: a URL without its fragment. What is made of the authority and the
path is left to `NetURL`; the query is cut off before they are looked at. -/
def parseRest (rawURL : Text) : Except GoError URL := do
  if rawURL.any fun c => c < ' '.toUInt8 ∨ c = 0x7f then
    throw (.text "net/url: invalid control character in URL")
  let (scheme, rest) ← getScheme rawURL
  let scheme := toLower scheme
  -- a lone `?` at the end is kept, although there is no query
  if rest.getLast? = some '?'.toUInt8 ∧ rest.count '?'.toUInt8 = 1 then
    return ⟨scheme, ← lib.hier scheme rest.dropLast, true, [], []⟩
  else
    return ⟨scheme, ← lib.hier scheme (before '?'.toUInt8 rest), false, after '?'.toUInt8 rest, []⟩

/-- `url.Parse`. The fragment is cut off first, so that a `?` behind a `#`
starts no query. -/
def parse (rawURL : Text) : Except GoError URL :=
  let u := before '#'.toUInt8 rawURL
  let frag := after '#'.toUInt8 rawURL
  match parseRest lib u with
  | .error err => .error (lib.parseError u err)
  | .ok url =>
    if frag = [] then .ok url
    else
      match lib.fragment frag with
      | .error err => .error (lib.parseError rawURL err)
      | .ok fragment => .ok { url with fragment }

/-- `URL.String`. A `?` that had nothing behind it is written again, as
`forceQuery` says. -/
def string (u : URL) : Text :=
  (if u.scheme ≠ [] then u.scheme ++ [':'.toUInt8] else [])
    ++ u.hier
    ++ (if u.forceQuery ∨ u.rawQuery ≠ [] then '?'.toUInt8 :: u.rawQuery else [])
    ++ (if u.fragment ≠ [] then '#'.toUInt8 :: u.fragment else [])

end URL

/-! ## `path/filepath` -/

/-- One element of a path, after those that are kept so far, the last of them
first. A `..` takes back the name before it; at the root there is nothing to
take back. -/
def cleanElement (rooted : Bool) (kept : List Text) (element : Text) : List Text :=
  if element = [] ∨ element = ascii "." then kept
  else if element = ascii ".." then
    match kept with
    | [] => if rooted then [] else [element]
    | last :: kept' => if last = ascii ".." then element :: last :: kept' else kept'
  else element :: kept

/-- The elements that are left of a path, the last one first. -/
def cleanElements (path : Text) : List Text :=
  (path.splitOn '/'.toUInt8).foldl (cleanElement (path.head? = some '/'.toUInt8)) []

/-- `filepath.Clean`. -/
def filepathClean (path : Text) : Text :=
  let out := (if path.head? = some '/'.toUInt8 then ['/'.toUInt8] else [])
    ++ ['/'.toUInt8].intercalate (cleanElements path).reverse
  if out = [] then ascii "." else out

/-- `filepath.Join`, of a directory and a name. It cleans what it has joined,
so that the result need not begin with the text of the directory. -/
def filepathJoin (dir name : Text) : Text :=
  if dir ≠ [] then filepathClean (dir ++ '/'.toUInt8 :: name)
  else if name ≠ [] then filepathClean name
  else []

/-! ## Files -/

/-- What the client does to the file system. -/
inductive FileOp where
  | writeFile (path : Text) (data : Bytes) (perm : ℕ)

/-- The file operations as calls. -/
def FileSig : Signature where
  Op := FileOp
  Ans _ := Except GoError Unit

/-- Writing a file may fail. The files themselves are not looked at here; what
is in them is a matter of `Connect`. -/
def fileStep (s : Unit) (o : FileSig.Op) (answer : Except GoError Unit) :
    Option (FileSig.Ans o × Unit) := some (answer, s)

def fileSem : Sem FileSig Unit := Prog.semOf fileStep

abbrev FileM := ExceptT GoError (Prog FileSig)

def credentialsFileMode : ℕ := 0o600

/-- `credentialFile`. -/
structure CredentialFile where
  name : String
  data : Bytes

/-- `writeCredentialFiles`: the first file that cannot be written ends it, and
those before it stay. -/
def writeCredentialFiles (dir : Text) : List CredentialFile → FileM Unit
  | [] => pure ()
  | f :: files => do
    ExceptT.adapt (.wrap ("write credential file " ++ f.name))
      (ExceptT.mk (Prog.perform (σ := FileSig)
        (.writeFile (filepathJoin dir (ascii f.name)) f.data credentialsFileMode)))
    writeCredentialFiles dir files

/-- `TLSCredentials.files`. -/
def TLSCredentials.files (t : TLSCredentials) : List CredentialFile :=
  [⟨"cacert.pem", t.caCert⟩, ⟨"clientcert.pem", t.clientCert⟩, ⟨"clientkey.pem", t.clientKey⟩]

/-- `SSHCredentials.files`. -/
def SSHCredentials.files (s : SSHCredentials) : List CredentialFile :=
  [⟨"id_key", s.privateKey⟩, ⟨"known_hosts", s.knownHosts⟩]

/-! ## The URI -/

def transportTLS : Text := ascii "tls"
def transportLibSSH : Text := ascii "libssh"
def transportLibSSH2 : Text := ascii "libssh2"
def uriParamPKIPath : Text := ascii "pkipath"
def uriParamKeyFile : Text := ascii "keyfile"
def uriParamKnownHosts : Text := ascii "known_hosts"
def uriParamSSHAuth : Text := ascii "sshauth"
def sshAuthPrivateKeyValue : Text := ascii "privkey"

def errNoTLSCredentials : GoError :=
  .text "the URI uses TLS but the credentials have no TLS keys"

def errNoSSHCredentials : GoError :=
  .text "the URI uses SSH but the credentials have no SSH keys"

/-- `transport`: what follows the `+` of a scheme. A scheme without one has
the empty transport, for which there are no credentials. -/
def transport (scheme : Text) : Text := after '+'.toUInt8 scheme

/-- A text in ASCII as a string. -/
def asciiString (s : Text) : String := String.ofList (s.map fun c => Char.ofNat c.toNat)

/-- The switch of `connectionURI`: the parameters for the transport are set,
and the files are written. For another transport, or one the secret has no
credentials for, it is an error, and nothing is written. -/
def Credentials.setParameters (c : Credentials) (scheme dir : Text)
    (params : List (Text × Text)) : FileM (List (Text × Text)) :=
  if transport scheme = transportTLS then
    match c.tls with
    | none => throw errNoTLSCredentials
    | some tls => do
      writeCredentialFiles dir tls.files
      pure (setValue params (uriParamPKIPath, dir))
  else if transport scheme = transportLibSSH ∨ transport scheme = transportLibSSH2 then
    match c.ssh with
    | none => throw errNoSSHCredentials
    | some ssh => do
      writeCredentialFiles dir ssh.files
      let params := setValue params (uriParamKeyFile, filepathJoin dir (ascii "id_key"))
      let params := setValue params (uriParamKnownHosts, filepathJoin dir (ascii "known_hosts"))
      pure (setValue params (uriParamSSHAuth, sshAuthPrivateKeyValue))
  else
    throw (.text ("credentials are not supported for URI scheme " ++ quote (asciiString scheme)
      ++ ", use qemu+tls, qemu+libssh or qemu+libssh2"))

/-- `Credentials.connectionURI`. The whole query is read as a form and written
as one, and not only the parameters that are set: this is where others can get
lost. -/
def Credentials.connectionURI (lib : NetURL) (c : Credentials) (uri dir : Text) : FileM Text :=
  match URL.parse lib uri with
  | .error err => throw (.wrap "parse libvirt URI" err)
  | .ok parsed => do
    let params ← c.setParameters parsed.scheme dir (parseQuery parsed.rawQuery)
    pure (URL.string { parsed with rawQuery := encode params })

/-- What a path is cleaned of: nothing but elements, `/` and `.`. -/
theorem mem_filepathClean {b : UInt8} (hslash : b ≠ '/'.toUInt8) (hdot : b ≠ '.'.toUInt8)
    (path : Text) : b ∈ filepathClean path ↔ ∃ e ∈ cleanElements path, b ∈ e := by
  obtain ⟨out, hclean, hout⟩ : ∃ out,
      filepathClean path = (if out = [] then ascii "." else out)
      ∧ (b ∈ out ↔ ∃ e ∈ cleanElements path, b ∈ e) := by
    refine ⟨_, rfl, ?_⟩
    rw [List.mem_append, mem_intercalate hslash]
    split <;> simp [hslash]
  rw [hclean, ← hout]
  split
  · rename_i hnil
    rw [hnil]
    exact iff_of_false (fun h => hdot (List.mem_singleton.mp h)) List.not_mem_nil
  · exact Iff.rfl

/-- **A plain file name in a directory**: one that a path keeps as it is, and
that leads into the directory and not out of it. -/
structure FileName (name : Text) : Prop where
  slash : '/'.toUInt8 ∉ name
  nonempty : name ≠ []
  dot : name ≠ ascii "."
  dots : name ≠ ascii ".."

theorem FileName.cleanElement {name : Text} (h : FileName name) (rooted : Bool)
    (kept : List Text) : cleanElement rooted kept name = name :: kept := by
  unfold LibvirtProvider.cleanElement
  rw [if_neg (not_or.mpr ⟨h.nonempty, h.dot⟩), if_neg h.dots]

/-- The elements of a path with a file name at its end. -/
theorem FileName.cleanElements {name : Text} (h : FileName name) {dir : Text} (hdir : dir ≠ []) :
    cleanElements (dir ++ '/'.toUInt8 :: name) = name :: cleanElements dir := by
  obtain ⟨c, dir, rfl⟩ := List.exists_cons_of_ne_nil hdir
  unfold LibvirtProvider.cleanElements
  rw [List.splitOn_append_cons_self, List.splitOn_eq_singleton h.slash, List.foldl_append]
  exact h.cleanElement _ _

/-- **A file's path has a byte that its name has not, if the directory's
does.** Applied to the space, it says when the URI points elsewhere than to
the files. -/
theorem FileName.mem_filepathJoin {name : Text} (h : FileName name) {b : UInt8} (hname : b ∉ name)
    (hslash : b ≠ '/'.toUInt8) (hdot : b ≠ '.'.toUInt8) (dir : Text) :
    b ∈ filepathJoin dir name ↔ b ∈ filepathClean dir := by
  unfold filepathJoin
  split
  · rename_i hdir
    rw [mem_filepathClean hslash hdot, mem_filepathClean hslash hdot, h.cleanElements hdir]
    simp [hname]
  · rename_i hdir
    rw [not_not.mp hdir, if_pos h.nonempty, mem_filepathClean hslash hdot,
      mem_filepathClean hslash hdot]
    unfold LibvirtProvider.cleanElements
    rw [List.splitOn_eq_singleton h.slash, List.foldl_cons, h.cleanElement]
    simp [hname, LibvirtProvider.cleanElement]

/-! ## What libvirt reads

libvirt takes the query to be what is between the `?` and the `#`. -/

/-- The query of a URI, as libvirt finds it. It does not parse what is before
it. -/
def uriQuery (uri : Text) : Text := after '?'.toUInt8 (before '#'.toUInt8 uri)

/-- **The parameters libvirt reads from a URI.** The reading is the plain one:
a `;` separates parameters, and a `+` is a `+`. -/
def libvirtParameters (uri : Text) : List (Text × Text) := readParameters (uriQuery uri)

/-- The transport of a URI. The scheme is in lower case by then, as Go has it. -/
def uriTransport (uri : Text) : Text :=
  match getScheme (before '#'.toUInt8 uri) with
  | .error _ => []
  | .ok (scheme, _) => transport (toLower scheme)

/-- **What is to be added** to a URI with a transport, for the credentials in
a directory. With TLS it is the directory alone; with SSH each file is named,
and the method with it. -/
def credentialSettings (transport dir : Text) : List (Text × Text) :=
  if transport = transportTLS then [(uriParamPKIPath, dir)]
  else [(uriParamKeyFile, filepathJoin dir (ascii "id_key")),
    (uriParamKnownHosts, filepathJoin dir (ascii "known_hosts")),
    (uriParamSSHAuth, sshAuthPrivateKeyValue)]

theorem settings_credentialSettings (transport dir : Text) :
    Settings (credentialSettings transport dir) := by
  unfold credentialSettings
  split
  · constructor
    · exact List.nodup_singleton _
    · simp only [List.mem_singleton, forall_eq]
      decide
  · constructor
    · show [uriParamKeyFile, uriParamKnownHosts, uriParamSSHAuth].Nodup
      decide
    · simp only [List.mem_cons, List.not_mem_nil, or_false, forall_eq_or_imp, forall_eq]
      decide

/-- The names of the files with the credentials. -/
def credentialFileNames (transport : Text) : List Text :=
  if transport = transportTLS then
    [ascii "cacert.pem", ascii "clientcert.pem", ascii "clientkey.pem"]
  else [ascii "id_key", ascii "known_hosts"]

/-- The files libvirt opens. With TLS it looks in a directory for files with
fixed names. -/
def filesRead (transport : Text) (params : List (Text × Text)) : List Text :=
  if transport = transportTLS then
    (params.filter (·.1 = uriParamPKIPath)).flatMap fun p =>
      [filepathJoin p.2 (ascii "cacert.pem"), filepathJoin p.2 (ascii "clientcert.pem"),
        filepathJoin p.2 (ascii "clientkey.pem")]
  else
    (params.filter (·.1 = uriParamKeyFile) ++ params.filter (·.1 = uriParamKnownHosts)).map
      Prod.snd

/-- The paths of the files that are written. -/
def writtenPaths (tr : List (Event FileSig)) : List Text :=
  tr.map fun ev =>
    match ev.1 with
    | .writeFile path _ _ => path

/-! ## The query of a URL -/

theorem getSchemeFrom_ok {rawURL scanned left scheme rest : Text}
    (h : getSchemeFrom rawURL scanned left = .ok (scheme, rest)) (hraw : rawURL = scanned ++ left)
    (hscanned : ∀ c ∈ scanned, isLetter c || isSchemeExtra c) (hscheme : scheme ≠ []) :
    rawURL = scheme ++ ':'.toUInt8 :: rest ∧ ∀ c ∈ scheme, isLetter c || isSchemeExtra c := by
  induction left generalizing scanned with
  | nil =>
    cases h
    exact absurd rfl hscheme
  | cons c left ih =>
    have hnext : rawURL = scanned ++ [c] ++ left := by
      rw [hraw, List.append_assoc]
      rfl
    have hall (hc : (isLetter c || isSchemeExtra c) = true) :
        ∀ d ∈ scanned ++ [c], isLetter d || isSchemeExtra d := by
      intro d hd
      rcases List.mem_append.mp hd with hd | hd
      · exact hscanned d hd
      · rw [List.mem_singleton.mp hd]
        exact hc
    rw [getSchemeFrom] at h
    split at h
    · rename_i hletter
      exact ih h hnext (hall (by rw [hletter, Bool.true_or]))
    split at h
    · rename_i hextra
      split at h
      · cases h
        exact absurd rfl hscheme
      · exact ih h hnext (hall (by rw [hextra, Bool.or_true]))
    split at h
    · rename_i hcolon
      split at h
      · cases h
      · cases h
        exact ⟨hcolon ▸ hraw, hscanned⟩
    · cases h
      exact absurd rfl hscheme

/-- A fact about every byte, checked one by one. -/
theorem forall_byte {P : UInt8 → Prop} (h : ∀ n < 256, P n.toUInt8) (b : UInt8) : P b := by
  have hb := h b.toNat b.toNat_lt
  rwa [show b.toNat.toUInt8 = b from UInt8.ofNat_toNat] at hb

/-- What a scheme is made of is not what a query starts or ends with. -/
theorem schemeByte_plain (c : UInt8) (h : (isLetter c || isSchemeExtra c) = true) :
    c ≠ '?'.toUInt8 ∧ '?'.toUInt8 ∉ toLower [c] ∧ '#'.toUInt8 ∉ toLower [c] := by
  revert h
  exact forall_byte (P := fun c => (isLetter c || isSchemeExtra c) = true →
    c ≠ '?'.toUInt8 ∧ '?'.toUInt8 ∉ toLower [c] ∧ '#'.toUInt8 ∉ toLower [c]) (by decide +kernel) c

theorem schemeBytes_plain {scheme : Text} (h : ∀ c ∈ scheme, isLetter c || isSchemeExtra c) :
    '?'.toUInt8 ∉ scheme ∧ '?'.toUInt8 ∉ toLower scheme ∧ '#'.toUInt8 ∉ toLower scheme := by
  have hlower : ∀ b, (∀ c ∈ scheme, b ∉ toLower [c]) → b ∉ toLower scheme := by
    intro b hb hmem
    obtain ⟨c, hc, rfl⟩ := List.mem_map.mp hmem
    exact hb c hc (List.mem_singleton_self _)
  exact ⟨fun hmem => (schemeByte_plain _ (h _ hmem)).1 rfl,
    hlower _ fun c hc => (schemeByte_plain c (h c hc)).2.1,
    hlower _ fun c hc => (schemeByte_plain c (h c hc)).2.2⟩

/-- A lone `?` at the end has nothing after it. -/
theorem after_of_getLast {b : UInt8} {s : Text} (hlast : s.getLast? = some b)
    (hcount : s.count b = 1) : after b s = [] := by
  obtain ⟨s', rfl⟩ := List.getLast?_eq_some_iff.mp hlast
  have hs' : b ∉ s' := by
    rw [List.count_append, List.count_singleton_self] at hcount
    exact List.count_eq_zero.mp (by omega)
  exact after_append_cons hs'

namespace URL

variable {lib : NetURL}

theorem parseRest_ok {rawURL : Text} {u : URL} (h : parseRest lib rawURL = .ok u) :
    ∃ scheme rest, getScheme rawURL = .ok (scheme, rest) ∧ u.scheme = toLower scheme
      ∧ u.rawQuery = after '?'.toUInt8 rest ∧ '?'.toUInt8 ∉ u.hier ∧ '#'.toUInt8 ∉ u.hier := by
  unfold parseRest at h
  split at h
  · cases h
  cases hscheme : getScheme rawURL with
  | error err =>
    rw [hscheme] at h
    cases h
  | ok parts =>
    obtain ⟨scheme, rest⟩ := parts
    rw [hscheme] at h
    refine ⟨scheme, rest, rfl, ?_⟩
    change (if _ then _ else _) = _ at h
    split at h
    · rename_i hforce
      cases hhier : lib.hier (toLower scheme) rest.dropLast with
      | error err =>
        rw [hhier] at h
        cases h
      | ok text =>
        rw [hhier] at h
        cases h
        exact ⟨rfl, (after_of_getLast hforce.1 hforce.2).symm, lib.plain _ _ _ hhier⟩
    · cases hhier : lib.hier (toLower scheme) (before '?'.toUInt8 rest) with
      | error err =>
        rw [hhier] at h
        cases h
      | ok text =>
        rw [hhier] at h
        cases h
        exact ⟨rfl, rfl, lib.plain _ _ _ hhier⟩

/-- The fragment is the one thing that is added to the rest; so what is to be
said of scheme, path and query is said of `parseRest`. -/
theorem parse_ok {uri : Text} {u : URL} (h : parse lib uri = .ok u) :
    ∃ u' fragment, parseRest lib (before '#'.toUInt8 uri) = .ok u' ∧ u = { u' with fragment } := by
  unfold parse at h
  dsimp only at h
  split at h
  · cases h
  rename_i u' hrest
  split at h
  · cases h
    exact ⟨u, u.fragment, hrest, rfl⟩
  split at h
  · cases h
  · cases h
    exact ⟨u', _, hrest, rfl⟩

/-- **What Go has parsed**, where there is a transport: the scheme and the
query are those that libvirt finds, and neither the scheme nor the path has
anything in it that a query starts or ends with. -/
theorem parse_transport {uri : Text} {u : URL} (h : parse lib uri = .ok u)
    (htransport : transport u.scheme ≠ []) :
    transport u.scheme = uriTransport uri ∧ u.rawQuery = uriQuery uri
      ∧ ('?'.toUInt8 ∉ u.scheme ∧ '#'.toUInt8 ∉ u.scheme)
      ∧ '?'.toUInt8 ∉ u.hier ∧ '#'.toUInt8 ∉ u.hier := by
  obtain ⟨u', fragment, hrest, rfl⟩ := parse_ok h
  obtain ⟨scheme, rest, hscheme, hlower, hquery, hhier⟩ := parseRest_ok hrest
  have hne : scheme ≠ [] := by
    rintro rfl
    refine htransport ?_
    show after _ u'.scheme = []
    rw [hlower]
    rfl
  obtain ⟨hraw, hbytes⟩ := getSchemeFrom_ok hscheme (List.nil_append _).symm
    (fun c hc => nomatch hc) hne
  obtain ⟨hplain, hlowerPlain⟩ := schemeBytes_plain hbytes
  refine ⟨?_, ?_, ?_, hhier⟩
  · unfold uriTransport
    rw [hscheme]
    exact congrArg transport hlower
  · have hcolon : '?'.toUInt8 ∉ scheme ++ [':'.toUInt8] := by
      rw [List.mem_append, not_or]
      exact ⟨hplain, by decide⟩
    unfold uriQuery
    rw [hraw, List.append_cons, after_append hcolon]
    exact hquery
  · show _ ∉ u'.scheme ∧ _ ∉ u'.scheme
    rw [hlower]
    exact hlowerPlain

/-- **The query of a URL that is written back** is found by libvirt where Go
has put it, as nothing before it has a `?` or a `#`, and it has no `#` itself. -/
theorem uriQuery_string {u : URL} (hscheme : '?'.toUInt8 ∉ u.scheme ∧ '#'.toUInt8 ∉ u.scheme)
    (hhier : '?'.toUInt8 ∉ u.hier ∧ '#'.toUInt8 ∉ u.hier) (hhash : '#'.toUInt8 ∉ u.rawQuery)
    (hne : u.rawQuery ≠ []) : uriQuery u.string = u.rawQuery := by
  obtain ⟨front, hfront, hquest, hash, hstring⟩ : ∃ front,
      front = (if u.scheme ≠ [] then u.scheme ++ [':'.toUInt8] else []) ++ u.hier
      ∧ '?'.toUInt8 ∉ front ∧ '#'.toUInt8 ∉ front
      ∧ u.string = (front ++ '?'.toUInt8 :: u.rawQuery)
        ++ (if u.fragment ≠ [] then '#'.toUInt8 :: u.fragment else []) := by
    refine ⟨_, rfl, ?_, ?_, ?_⟩
    · split <;> simp [hscheme, hhier, show '?'.toUInt8 ≠ ':'.toUInt8 by decide]
    · split <;> simp [hscheme, hhier, show '#'.toUInt8 ≠ ':'.toUInt8 by decide]
    · unfold string
      rw [if_pos (Or.inr hne)]
  have hbefore : before '#'.toUInt8 u.string = front ++ '?'.toUInt8 :: u.rawQuery := by
    have hplain : '#'.toUInt8 ∉ front ++ '?'.toUInt8 :: u.rawQuery := by
      simp [hash, hhash, show '#'.toUInt8 ≠ '?'.toUInt8 by decide]
    rw [hstring]
    split
    · exact before_append_cons hplain
    · rw [List.append_nil]
      exact before_of_notMem hplain
  unfold uriQuery
  rw [hbefore, after_append_cons hquest]

end URL

/-! ## Runs -/

theorem writeCredentialFiles_exec {dir : Text} {files : List CredentialFile} {s s' : Unit}
    {tr : List (Event FileSig)}
    (h : Prog.Exec fileSem (writeCredentialFiles dir files).run s tr s' (.ok ())) :
    writtenPaths tr = files.map fun f => filepathJoin dir (ascii f.name) := by
  induction files generalizing s tr with
  | nil =>
    obtain ⟨rfl, -, -⟩ := h
    rfl
  | cons f files ih =>
    obtain ⟨_, s₁, tr₁, tr₂, rfl, hwrite, hrest⟩ := Prog.exec_bind_ok.mp h
    obtain ⟨-, rfl⟩ := Prog.exec_perform.mp (Prog.exec_adapt_ok.mp hwrite)
    rw [List.map_cons, ← ih hrest]
    rfl

/-- A run of the switch that succeeds: there is a transport, its settings are
made, and all of its files are written. -/
theorem setParameters_exec {c : Credentials} {scheme dir : Text}
    {params params' : List (Text × Text)} {s s' : Unit} {tr : List (Event FileSig)}
    (h : Prog.Exec fileSem (c.setParameters scheme dir params).run s tr s' (.ok params')) :
    transport scheme ≠ []
      ∧ params' = (credentialSettings (transport scheme) dir).foldl setValue params
      ∧ writtenPaths tr = (credentialFileNames (transport scheme)).map (filepathJoin dir) := by
  unfold Credentials.setParameters at h
  unfold credentialSettings credentialFileNames
  split at h
  · rename_i htls
    rw [if_pos htls, if_pos htls, htls]
    split at h
    · cases h.2.2
    · obtain ⟨_, s₁, tr₁, tr₂, rfl, hfiles, rfl, -, hparams⟩ := Prog.exec_bind_ok.mp h
      cases hparams
      rw [List.append_nil]
      exact ⟨by decide, rfl, writeCredentialFiles_exec hfiles⟩
  · rename_i htls
    rw [if_neg htls, if_neg htls]
    split at h
    · rename_i hssh
      split at h
      · cases h.2.2
      · obtain ⟨_, s₁, tr₁, tr₂, rfl, hfiles, rfl, -, hparams⟩ := Prog.exec_bind_ok.mp h
        cases hparams
        rw [List.append_nil]
        refine ⟨?_, rfl, writeCredentialFiles_exec hfiles⟩
        rcases hssh with hssh | hssh <;> rw [hssh] <;> decide
    · cases h.2.2

/-- **A run that returns a URI**: its query is the one that was parsed, with
the settings, and the files are where the settings point to – up to how they
are written. -/
theorem connectionURI_exec {lib : NetURL} {c : Credentials} {uri dir out : Text} {s s' : Unit}
    {tr : List (Event FileSig)}
    (h : Prog.Exec fileSem (c.connectionURI lib uri dir).run s tr s' (.ok out)) :
    uriQuery out = encode ((credentialSettings (uriTransport uri) dir).foldl setValue
        (parseQuery (uriQuery uri)))
      ∧ writtenPaths tr = (credentialFileNames (uriTransport uri)).map (filepathJoin dir) := by
  unfold Credentials.connectionURI at h
  cases hparse : URL.parse lib uri with
  | error err =>
    rw [hparse] at h
    cases h.2.2
  | ok u =>
    rw [hparse] at h
    obtain ⟨params, s₁, tr₁, tr₂, rfl, hset, rfl, -, hout⟩ := Prog.exec_bind_ok.mp h
    cases hout
    obtain ⟨htransport, rfl, hwritten⟩ := setParameters_exec hset
    obtain ⟨hscheme, hquery, hplain, hhier⟩ := URL.parse_transport hparse htransport
    rw [List.append_nil, hwritten, ← hscheme, ← hquery]
    refine ⟨URL.uriQuery_string hplain hhier ?_ ?_, rfl⟩
    · exact notMem_encode (by decide) (by decide) (by decide) (by decide) (by decide) _
    · refine (settings_credentialSettings _ dir).encode_ne_nil ?_ _
      unfold credentialSettings
      split <;> exact List.cons_ne_nil _ _

/-! ## The other parameters -/

/-- **The parameters are kept**: libvirt reads from the new URI what it reads
from the old one, except that it reads the settings, each once; and the files
it is pointed to are those that were written. -/
structure KeepsParameters (uri dir out : Text) (written : List Text) : Prop where
  others : (others ((credentialSettings (uriTransport uri) dir).map Prod.fst)
      (libvirtParameters out)).Perm
    (others ((credentialSettings (uriTransport uri) dir).map Prod.fst) (libvirtParameters uri))
  set : ∀ s ∈ credentialSettings (uriTransport uri) dir,
    (libvirtParameters out).filter (·.1 = s.1) = [s]
  files : filesRead (uriTransport uri) (libvirtParameters out) = written

/-- The paths that are written into the URI have no space. With SSH they are
joined and so cleaned, which can take a space away: it can stand in an element
that a `..` takes back. -/
def DirectoryPlain (transport dir : Text) : Prop :=
  if transport = transportTLS then ' '.toUInt8 ∉ dir else ' '.toUInt8 ∉ filepathClean dir

instance (transport dir : Text) : Decidable (DirectoryPlain transport dir) := by
  unfold DirectoryPlain
  infer_instance

/-- **A URI and a directory that both sides read alike.** Each section of the
query that has a parameter which is not set is well formed, and the parameter
has no space; nor does the path of the directory. -/
def ReadAlike (uri dir : Text) : Prop :=
  (∀ s ∈ (uriQuery uri).splitOn '&'.toUInt8,
    ∀ p ∈ others ((credentialSettings (uriTransport uri) dir).map Prod.fst) (readSection s),
      WellFormed s ∧ ' '.toUInt8 ∉ p.1 ∧ ' '.toUInt8 ∉ p.2)
  ∧ DirectoryPlain (uriTransport uri) dir

theorem fileName_ascii : ∀ name ∈ ["id_key", "known_hosts"],
    FileName (ascii name) ∧ ' '.toUInt8 ∉ ascii name := by
  intro name hname
  simp only [List.mem_cons, List.not_mem_nil, or_false] at hname
  rcases hname with rfl | rfl
  · exact ⟨⟨by decide, by decide, by decide, by decide⟩, by decide⟩
  · exact ⟨⟨by decide, by decide, by decide, by decide⟩, by decide⟩

/-- The settings have no space if the directory has none. -/
theorem directoryPlain_iff (transport dir : Text) :
    DirectoryPlain transport dir
      ↔ ∀ s ∈ credentialSettings transport dir, plusForSpace s.2 = s.2 := by
  have hjoin : ∀ name ∈ ["id_key", "known_hosts"],
      (' '.toUInt8 ∈ filepathJoin dir (ascii name) ↔ ' '.toUInt8 ∈ filepathClean dir) := by
    intro name hname
    obtain ⟨h, hspace⟩ := fileName_ascii name hname
    exact h.mem_filepathJoin hspace (by decide) (by decide) dir
  simp only [plusForSpace_eq_self]
  unfold DirectoryPlain credentialSettings
  split
  · simp
  · have hauth : ' '.toUInt8 ∉ sshAuthPrivateKeyValue := by decide
    simp [hauth, hjoin "id_key" (by simp), hjoin "known_hosts" (by simp)]

/-- Each setting read back once points to the files. -/
theorem filesRead_of_set {transport dir : Text} {params : List (Text × Text)}
    (h : ∀ s ∈ credentialSettings transport dir, params.filter (·.1 = s.1) = [s]) :
    filesRead transport params = (credentialFileNames transport).map (filepathJoin dir) := by
  unfold credentialSettings at h
  unfold filesRead credentialFileNames
  split at h
  · rename_i htls
    rw [if_pos htls, if_pos htls, h _ (List.mem_singleton_self _)]
    rfl
  · rename_i htls
    have hkeyFile := h _ List.mem_cons_self
    have hknownHosts := h _ (List.mem_cons_of_mem _ List.mem_cons_self)
    dsimp only at hkeyFile hknownHosts
    rw [if_neg htls, if_neg htls, hkeyFile, hknownHosts]
    rfl

/-- **Adding credentials keeps the other parameters** exactly if both sides
read the URI and the directory alike. This is for every run that returns a
URI: the condition is on what the call was given, so that an operator can
check it beforehand. -/
theorem connectionURI_keepsParameters_iff (lib : NetURL) (c : Credentials) (uri dir out : Text)
    (tr : List (Event FileSig))
    (h : Prog.Exec fileSem (c.connectionURI lib uri dir).run () tr () (.ok out)) :
    KeepsParameters uri dir out (writtenPaths tr) ↔ ReadAlike uri dir := by
  obtain ⟨hquery, hwritten⟩ := connectionURI_exec h
  have hsettings := settings_credentialSettings (uriTransport uri) dir
  have hparams : libvirtParameters out
      = readParameters (encode ((credentialSettings (uriTransport uri) dir).foldl setValue
          (parseQuery (uriQuery uri)))) := congrArg readParameters hquery
  have hothers := perm_recode_iff hsettings.names_plain (uriQuery uri)
  have hset : (∀ s ∈ credentialSettings (uriTransport uri) dir,
      (libvirtParameters out).filter (·.1 = s.1) = [s])
        ↔ DirectoryPlain (uriTransport uri) dir := by
    rw [directoryPlain_iff, hparams]
    refine forall₂_congr fun s hs => ?_
    rw [hsettings.filter_readParameters _ hs, List.singleton_inj, Prod.ext_iff]
    exact and_iff_right rfl
  have hkept := hsettings.others_readParameters (parseQuery (uriQuery uri))
  rw [← hparams] at hkept
  constructor
  · intro hkeeps
    exact ⟨hothers.mp (hkept.symm.trans hkeeps.others), hset.mp hkeeps.set⟩
  · intro hread
    have hdir := hset.mpr hread.2
    exact ⟨hkept.trans (hothers.mpr hread.1), hdir, hwritten ▸ filesRead_of_set hdir⟩

/-- A `net/url` that writes an authority and a path back as they are. That is
enough for the URIs below. -/
def verbatimURL : NetURL where
  hier _ text :=
    if '?'.toUInt8 ∈ text ∨ '#'.toUInt8 ∈ text then .error (.text "invalid") else .ok text
  fragment text := .ok text
  parseError _ err := err
  plain scheme rest text h := by
    split at h
    · cases h
    · rename_i hplain
      cases h
      exact not_or.mp hplain

/-- TLS credentials. -/
def tlsCredentials : Credentials := ⟨some ⟨[1], [2], [3]⟩, none⟩

/-- A parameter of the usual kind is kept. -/
theorem connectionURI_keepsParameters_noVerify :
    ∃ tr, Prog.Exec fileSem (tlsCredentials.connectionURI verbatimURL
        (ascii "qemu+tls://libvirt.lab/system?no_verify=1") (ascii "/tmp/x")).run () tr ()
        (.ok (ascii "qemu+tls://libvirt.lab/system?no_verify=1&pkipath=%2Ftmp%2Fx"))
      ∧ KeepsParameters (ascii "qemu+tls://libvirt.lab/system?no_verify=1") (ascii "/tmp/x")
        (ascii "qemu+tls://libvirt.lab/system?no_verify=1&pkipath=%2Ftmp%2Fx")
        (writtenPaths tr) := by
  have hrun : (Prog.runWith fileStep (.ok ()) (tlsCredentials.connectionURI verbatimURL
      (ascii "qemu+tls://libvirt.lab/system?no_verify=1") (ascii "/tmp/x")).run () []).map Prod.snd
      = some ((), .ok (ascii "qemu+tls://libvirt.lab/system?no_verify=1&pkipath=%2Ftmp%2Fx")) := by
    decide +kernel
  obtain ⟨tr, h⟩ := Prog.exists_exec_of_runWith hrun
  refine ⟨tr, h, (connectionURI_keepsParameters_iff _ _ _ _ _ _ h).mpr ?_⟩
  unfold ReadAlike
  decide +kernel

/-- Parameters that are separated by a `;` are lost: the form reading drops
the whole section, with both of them, and no error is reported. -/
theorem not_keepsParameters_semicolon :
    ∃ tr, Prog.Exec fileSem (tlsCredentials.connectionURI verbatimURL
        (ascii "qemu+tls://libvirt.lab/system?no_verify=1;no_sanity=1")
        (ascii "/tmp/x")).run () tr ()
        (.ok (ascii "qemu+tls://libvirt.lab/system?pkipath=%2Ftmp%2Fx"))
      ∧ ¬ KeepsParameters (ascii "qemu+tls://libvirt.lab/system?no_verify=1;no_sanity=1")
        (ascii "/tmp/x") (ascii "qemu+tls://libvirt.lab/system?pkipath=%2Ftmp%2Fx")
        (writtenPaths tr) := by
  have hrun : (Prog.runWith fileStep (.ok ()) (tlsCredentials.connectionURI verbatimURL
      (ascii "qemu+tls://libvirt.lab/system?no_verify=1;no_sanity=1") (ascii "/tmp/x")).run ()
        []).map Prod.snd
      = some ((), .ok (ascii "qemu+tls://libvirt.lab/system?pkipath=%2Ftmp%2Fx")) := by
    decide +kernel
  obtain ⟨tr, h⟩ := Prog.exists_exec_of_runWith hrun
  refine ⟨tr, h, fun hkeeps => absurd hkeeps.others ?_⟩
  decide +kernel

end LibvirtProvider

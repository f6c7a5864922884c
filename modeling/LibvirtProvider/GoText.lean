import Mathlib

/-!
# Go's errors and strings, as far as the provider uses them

An error of the provider is either one that libvirt reported, or a text, or
a text put in front of another error (`fmt.Errorf` with `%w`), or two errors
joined (`errors.Join`). The provider looks inside an error in one way only:
`errors.As` for a `*libvirt.Error`, the first one in the chain, and then its
code.

An error that libvirt reported has one of two dynamic types, and `errors.As`
tells them apart: `libvirt.Error`, which is what the binding that `go.mod`
pins hands over, and `*libvirt.Error`, which is what `isLibvirtErr` and
`isVolumeNotFound` ask for and what their tests pass to them. So the two
functions answer no to every error a call really returns. Which of the two
types the binding uses is kept as a parameter (`ErrorForm`): results about
the program as it is are about `value`, and results about `pointer` say what
the rest of the code does once a libvirt error is recognised.

`equalFold` is `strings.EqualFold`. Simple case folding puts an ASCII letter
in one class with its other case and, for `k` and `s`, with one character
outside ASCII each; everything else in ASCII is alone. The provider only ever
compares against a MAC or an address it has formatted itself, which is ASCII,
so those classes are all that is needed.
-/

namespace LibvirtProvider

/-- The libvirt error codes the provider distinguishes. `other` stands for
each of the remaining ones. -/
inductive ErrorNumber where
  | noDomain
  | noStoragePool
  | noStorageVol
  | noNetwork
  | other (code : ℕ)
  deriving DecidableEq, Repr

/-- **A Go error value**, as the provider builds and inspects it. The two
dynamic types of a libvirt error are two constructors, because a value of the
one is never found by an `errors.As` for the other. -/
inductive GoError where
  /-- `libvirt.Error`, by value. -/
  | libvirt (code : ErrorNumber)
  /-- `*libvirt.Error`. -/
  | libvirtPtr (code : ErrorNumber)
  /-- `errors.New`, or `fmt.Errorf` without `%w`. -/
  | text (msg : String)
  /-- `fmt.Errorf("context: %w", err)`. -/
  | wrap (context : String) (err : GoError)
  /-- `errors.Join` of two errors. -/
  | join (err err' : GoError)
  deriving DecidableEq, Repr

/-- **The form in which the binding hands over an error of libvirt.** The
binding of `go.mod` returns `libvirt.Error` by value, so `value` is the
program as it is. The other form is what the code was written for, and decides
what it does on every path that begins with a recognised error. -/
inductive ErrorForm where
  | value
  | pointer
  deriving DecidableEq, Repr

/-- The error value of a code. -/
def ErrorForm.error : ErrorForm → ErrorNumber → GoError
  | .value => .libvirt
  | .pointer => .libvirtPtr

theorem ErrorForm.eq_pointer {form : ErrorForm} (h : form ≠ .value) : form = .pointer := by
  cases form with
  | value => exact absurd rfl h
  | pointer => rfl

/-- `errors.As` for a `*libvirt.Error`: the code of the first one in the
chain. A `libvirt.Error` is not one. -/
def GoError.libvirtCode : GoError → Option ErrorNumber
  | .libvirt _ => none
  | .libvirtPtr c => some c
  | .text _ => none
  | .wrap _ err => err.libvirtCode
  | .join err err' => err.libvirtCode.or err'.libvirtCode

/-- `errors.Join` of an error and a result that may be one. -/
def GoError.joinResult (err : GoError) : Except GoError Unit → GoError
  | .ok _ => err
  | .error err' => .join err err'

/-- `isLibvirtErr`. The code is compared only once `errors.As` has found a
`*libvirt.Error`, so in the form `value` the answer is no for every error and
every code. -/
def isLibvirtErr (err : GoError) (code : ErrorNumber) : Bool := err.libvirtCode == some code

/-- `isVolumeNotFound`. As with `isLibvirtErr`, an error in the form `value`
is not recognised, also when it says that there is no such volume. -/
def isVolumeNotFound (err : GoError) : Bool :=
  match err.libvirtCode with
  | some c => c == .noStorageVol
  | none => false

@[simp] theorem isLibvirtErr_error (form : ErrorForm) (c code : ErrorNumber) :
    isLibvirtErr (form.error c) code = (form == .pointer && c == code) := by
  cases form <;> rfl

@[simp] theorem isVolumeNotFound_error (form : ErrorForm) (c : ErrorNumber) :
    isVolumeNotFound (form.error c) = (form == .pointer && c == .noStorageVol) := by
  cases form <;> rfl

/-- The escape of a character under Go's `%q`, for ASCII. -/
def quoteChar (c : Char) : String :=
  if c = '"' then "\\\""
  else if c = '\\' then "\\\\"
  else if c = '\n' then "\\n"
  else if c = '\r' then "\\r"
  else if c = '\t' then "\\t"
  else String.singleton c

/-- `fmt`'s `%q`. -/
def quote (s : String) : String :=
  "\"" ++ s.toList.foldr (fun c acc => quoteChar c ++ acc) "\""

/-! ## Case folding -/

/-- The representative of a character's class under simple case folding,
for the classes that meet ASCII. -/
def foldChar (c : Char) : Char :=
  if c = Char.ofNat 0x212A then 'k'
  else if c = Char.ofNat 0x017F then 's'
  else c.toLower

/-- A text up to case. -/
def foldKey (s : String) : List Char := s.toList.map foldChar

/-- `strings.EqualFold`. Stated through a key, because it then is an
equivalence relation without further proof: two texts are equal up to case
when their keys are the same. -/
def equalFold (s t : String) : Bool := foldKey s == foldKey t

@[simp] theorem equalFold_iff {s t : String} :
    equalFold s t = true ↔ foldKey s = foldKey t := beq_iff_eq

@[simp] theorem equalFold_eq_false {s t : String} :
    equalFold s t = false ↔ foldKey s ≠ foldKey t := by
  rw [← Bool.not_eq_true, equalFold_iff]

/-- Lowering a character leaves it or makes it a lower-case letter. -/
private theorem toLower_cases (c : Char) : c.toLower = c ∨ c.toLower.isLower = true := by
  unfold Char.toLower
  split
  · rename_i h
    have hlo : 65 ≤ c.val.toNat := h.1
    have hhi : c.val.toNat ≤ 90 := h.2
    have hsum : (c.val + 32).toNat = c.val.toNat + 32 := by
      rw [UInt32.toNat_add]
      exact Nat.mod_eq_of_lt (show c.val.toNat + 32 < 2 ^ 32 by omega)
    right
    rw [Char.isLower, Bool.and_eq_true, decide_eq_true_eq, decide_eq_true_eq]
    constructor
    · show 97 ≤ (c.val + 32).toNat
      omega
    · show (c.val + 32).toNat ≤ 122
      omega
  · exact Or.inl rfl

/-- Folding a character leaves it or makes it a lower-case letter. -/
theorem foldChar_cases (c : Char) : foldChar c = c ∨ (foldChar c).isLower = true := by
  unfold foldChar
  split
  · exact Or.inr (by decide)
  · split
    · exact Or.inr (by decide)
    · exact toLower_cases c

/-- Digits and punctuation before the letters are alone in their class. -/
theorem foldChar_of_lt {c : Char} (h : c.toNat < 65) :
    foldChar c = c ∧ c.isLower = false := by
  have hv : c.val.toNat < 65 := h
  refine ⟨?_, ?_⟩
  · unfold foldChar
    rw [if_neg, if_neg, Char.toLower, dif_neg]
    · rintro ⟨hlo, -⟩
      exact absurd (show 65 ≤ c.val.toNat from hlo) (by omega)
    · rintro rfl
      exact absurd h (by decide)
    · rintro rfl
      exact absurd h (by decide)
  · rw [Char.isLower, Bool.and_eq_false_iff, decide_eq_false_iff_not]
    exact Or.inl fun hlo => absurd (show 97 ≤ c.val.toNat from hlo) (by omega)

/-- A text no character of which changes under folding is its own fold. -/
theorem foldKey_of_fixed {s : String} (hs : ∀ c ∈ s.toList, foldChar c = c) :
    foldKey s = s.toList := by
  unfold foldKey
  conv_rhs => rw [← List.map_id s.toList]
  exact List.map_congr_left hs

/-- Two texts no character of which changes under folding agree up to case
only if they are the same. -/
theorem eq_of_foldKey_eq {s t : String} (hs : ∀ c ∈ s.toList, foldChar c = c)
    (ht : ∀ c ∈ t.toList, foldChar c = c) (h : foldKey s = foldKey t) : s = t := by
  rw [foldKey_of_fixed hs, foldKey_of_fixed ht] at h
  exact String.toList_inj.mp h

/-- **Against a text without letters, `EqualFold` is equality.** Addresses are
such texts, so the comparisons of `planHostUpdate` up to case are comparisons. -/
theorem foldKey_eq_iff_of_not_isLower {s t : String}
    (ht : ∀ c ∈ t.toList, foldChar c = c ∧ c.isLower = false) :
    foldKey s = foldKey t ↔ s = t := by
  constructor
  · intro h
    refine eq_of_foldKey_eq (fun c hc => ?_) (fun c hc => (ht c hc).1) h
    -- a character that folding changes becomes a letter, and `t` has none
    rcases foldChar_cases c with hfix | hlow
    · exact hfix
    · have hmem : foldChar c ∈ foldKey t := h ▸ List.mem_map_of_mem hc
      rw [foldKey_of_fixed fun c hc => (ht c hc).1] at hmem
      rw [(ht _ hmem).2] at hlow
      exact absurd hlow Bool.false_ne_true
  · rintro rfl
    rfl

/-- What holds of the characters of the pieces and of the separator holds of
the characters of the joined text. -/
theorem forall_mem_join {P : Char → Prop} {sep : List Char} {l : List (List Char)}
    (hsep : ∀ c ∈ sep, P c) (hl : ∀ s ∈ l, ∀ c ∈ s, P c) : ∀ c ∈ sep.intercalate l, P c := by
  induction l with
  | nil => simp
  | cons s l ih =>
    cases l with
    | nil =>
      rw [List.intercalate_singleton]
      exact hl s (by simp)
    | cons t l =>
      intro c hc
      rw [List.intercalate_cons_cons, List.mem_append, List.mem_append] at hc
      rcases hc with (hc | hc) | hc
      · exact hl s (by simp) c hc
      · exact hsep c hc
      · exact ih (fun u hu => hl u (List.mem_cons_of_mem s hu)) c hc

theorem forall_mem_intercalate {P : Char → Prop} {sep : String} {l : List String}
    (hsep : ∀ c ∈ sep.toList, P c) (hl : ∀ s ∈ l, ∀ c ∈ s.toList, P c) :
    ∀ c ∈ (sep.intercalate l).toList, P c := by
  rw [String.toList_intercalate]
  refine forall_mem_join hsep fun s hs => ?_
  obtain ⟨t, ht, rfl⟩ := List.mem_map.mp hs
  exact hl t ht

/-! ## Prefixes -/

/-- `strings.TrimPrefix`: a text that does not begin with the other one is
returned as it is. -/
def trimPrefix (s pre : String) : String :=
  if pre.toList.isPrefixOf s.toList then String.ofList (s.toList.drop pre.toList.length)
  else s

/-- Trimming what was put in front gives the text back, whatever the text
itself begins with. -/
@[simp] theorem trimPrefix_append (pre s : String) : trimPrefix (pre ++ s) pre = s := by
  unfold trimPrefix
  rw [String.toList_append, if_pos (List.isPrefixOf_iff_prefix.mpr (List.prefix_append _ _)),
    List.drop_left, String.ofList_toList]

end LibvirtProvider

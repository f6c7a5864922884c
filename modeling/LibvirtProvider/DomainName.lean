import LibvirtProvider.MachineController

/-!
# Domain names as DNS labels

A domain's name is also its DHCP host name, so it has to be a DNS label. It
is made of the namespace and the object's name, with the dots of the latter
replaced, cut to a fixed length and stripped of the dashes the cut ends in,
and of six digits of a digest.

The cut can fall anywhere: in the namespace, in a run of dashes, right before
the digest. What makes the result a label is that the first character, a
letter or digit of the namespace, survives the cut, and that the last one is
a digit of the digest (`domainName_isDNS1123Label`).
-/

namespace LibvirtProvider

/-! ## DNS-1123 names -/

/-- A lower-case letter or a digit. -/
def isAlphanumeric (c : Char) : Bool := (decide ('a' ≤ c ∧ c ≤ 'z')) || decide ('0' ≤ c ∧ c ≤ '9')

/-- A letter, a digit or a dash. -/
def isLabelChar (c : Char) : Bool := isAlphanumeric c || c == '-'

/-- **The text of a DNS-1123 label**: `[a-z0-9]([-a-z0-9]*[a-z0-9])?`. The
expression comes to a condition on the first, on the last and on every
character. -/
def isLabel (l : List Char) : Bool :=
  l.head?.any isAlphanumeric && l.getLast?.any isAlphanumeric && l.all isLabelChar

/-- `validation.IsDNS1123Label`: the text of a label, of 1 to 63 characters. -/
def IsDNS1123Label (s : String) : Prop := isLabel s.toList = true ∧ s.toList.length ≤ 63

/-- `validation.IsDNS1123Subdomain`: labels with dots between them, of 1 to
253 characters. -/
def IsDNS1123Subdomain (s : String) : Prop :=
  (∀ l ∈ s.toList.splitOn '.', isLabel l = true) ∧ s.toList.length ≤ 253

instance (s : String) : Decidable (IsDNS1123Label s) := inferInstanceAs (Decidable (_ ∧ _))

instance (s : String) : Decidable (IsDNS1123Subdomain s) := inferInstanceAs (Decidable (_ ∧ _))

theorem isLabel_iff {l : List Char} :
    isLabel l = true ↔ (∃ c, l.head? = some c ∧ isAlphanumeric c = true)
      ∧ (∃ c, l.getLast? = some c ∧ isAlphanumeric c = true) ∧ ∀ c ∈ l, isLabelChar c = true := by
  simp [isLabel, Option.any_eq_true, and_assoc]

/-- What holds of the separator and of the characters between separators
holds of every character. -/
theorem forall_mem_of_splitOn {P : Char → Prop} (sep : Char) {l : List Char} (hsep : P sep)
    (h : ∀ piece ∈ l.splitOn sep, ∀ c ∈ piece, P c) : ∀ c ∈ l, P c := by
  have hl : [sep].intercalate (l.splitOn sep) = l := List.intercalate_splitOn sep
  rw [← hl]
  exact forall_mem_join (by simpa using hsep) h

/-! ## The label -/

theorem isAlphanumeric_hexDigit (n : UInt8) : isAlphanumeric (hexDigit n) = true := by
  unfold hexDigit
  rw [List.getD_eq_getElem?_getD]
  have hall : ['0', '1', '2', '3', '4', '5', '6', '7', '8', '9', 'a', 'b', 'c', 'd',
      'e', 'f'].all isAlphanumeric = true := by decide
  cases h : ['0', '1', '2', '3', '4', '5', '6', '7', '8', '9', 'a', 'b', 'c', 'd', 'e',
      'f'][n.toNat]? with
  | none => decide
  | some c => exact List.all_eq_true.mp hall c (List.mem_of_getElem? h)

/-- The hexadecimal digits of a digest. -/
def hexDigits (digest : Bytes) : List Char := digest.flatMap fun b => (hexByte b).toList

theorem isAlphanumeric_of_mem_hexDigits {digest : Bytes} {c : Char} (h : c ∈ hexDigits digest) :
    isAlphanumeric c = true := by
  obtain ⟨b, -, hc⟩ := List.mem_flatMap.mp h
  rw [hexByte, String.toList_ofList] at hc
  rcases List.mem_pair.mp hc with rfl | rfl <;> exact isAlphanumeric_hexDigit _

theorem length_hexDigits (digest : Bytes) : (hexDigits digest).length = 2 * digest.length := by
  induction digest with
  | nil => rfl
  | cons b digest ih =>
    rw [hexDigits, List.flatMap_cons, List.length_append]
    change _ + (hexDigits digest).length = _
    rw [ih, List.length_cons, hexByte, String.toList_ofList]
    simp only [List.length_cons, List.length_nil]
    omega

/-- Cutting off what hangs over, and the dashes the cut ends in. A label that
fits is left as it is, also where it ends in a dash. -/
def cutLabel (maxLength : ℕ) (label : List Char) : List Char :=
  if label.length > maxLength then trimRight '-' (label.take maxLength) else label

theorem toList_domainNameOf (digest : Bytes) (nmspace name : String) :
    (domainNameOf digest nmspace name).toList
      = cutLabel 56 (nmspace.toList ++ '-' :: name.toList.map fun c => if c = '.' then '-' else c)
        ++ '-' :: (hexDigits digest).take 6 := by
  unfold domainNameOf
  exact String.toList_ofList

section Cut

variable {maxLength : ℕ} {c : Char} {label : List Char}

theorem cutLabel_isPrefix (maxLength : ℕ) (label : List Char) :
    cutLabel maxLength label <+: label := by
  unfold cutLabel
  split
  · exact (List.rdropWhile_prefix _ _).trans (List.take_prefix _ _)
  · exact List.prefix_refl _

theorem length_cutLabel_le (maxLength : ℕ) (label : List Char) :
    (cutLabel maxLength label).length ≤ maxLength := by
  unfold cutLabel
  split
  · exact (List.rdropWhile_prefix _ _).length_le.trans (List.length_take_le _ _)
  · omega

/-- A label that does not begin with a dash keeps its first character. -/
theorem head?_cutLabel (hmax : 0 < maxLength) (hc : c ≠ '-') :
    (cutLabel maxLength (c :: label)).head? = some c := by
  have hne : cutLabel maxLength (c :: label) ≠ [] := by
    unfold cutLabel
    split
    · rw [trimRight, Ne, List.rdropWhile_eq_nil_iff]
      obtain ⟨n, rfl⟩ := Nat.exists_eq_succ_of_ne_zero hmax.ne'
      intro h
      exact hc (by simpa using h c (by simp))
    · simp
  obtain ⟨rest, hrest⟩ := cutLabel_isPrefix maxLength (c :: label)
  cases hcut : cutLabel maxLength (c :: label) with
  | nil => exact absurd hcut hne
  | cons d l =>
    rw [hcut, List.cons_append] at hrest
    rw [(List.cons.inj hrest).1]
    rfl

end Cut

/-- Whatever the digest is, the name is a label that ends in a dash and the
digest's first six digits. Nothing of the hash function is used but that the
digest is long enough. -/
theorem domainNameOf_label {digest : Bytes} (hdigest : 3 ≤ digest.length) {nmspace name : String}
    (hns : IsDNS1123Label nmspace) (hname : IsDNS1123Subdomain name) :
    IsDNS1123Label (domainNameOf digest nmspace name)
    ∧ ('-' :: (hexDigits digest).take 6) <:+ (domainNameOf digest nmspace name).toList
    ∧ ((hexDigits digest).take 6).length = 6 := by
  obtain ⟨⟨c, hhead, hc⟩, -, hchars⟩ := isLabel_iff.mp hns.1
  obtain ⟨rest, hrest⟩ : ∃ rest, nmspace.toList = c :: rest := List.head?_eq_some_iff.mp hhead
  have hlen : ((hexDigits digest).take 6).length = 6 := by
    rw [List.length_take, length_hexDigits]
    omega
  have hcdash : c ≠ '-' := by
    rintro rfl
    exact absurd hc (by decide)
  have hnchars : ∀ x ∈ name.toList, isLabelChar (if x = '.' then '-' else x) = true := by
    refine forall_mem_of_splitOn '.' (by decide) fun piece hp x hx => ?_
    have hx := (isLabel_iff.mp (hname.1 piece hp)).2.2 x hx
    split
    · decide
    · exact hx
  have hlabel : ∀ x ∈ nmspace.toList ++ '-' :: name.toList.map fun c => if c = '.' then '-' else c,
      isLabelChar x = true := by
    intro x hx
    rw [List.mem_append, List.mem_cons, List.mem_map] at hx
    rcases hx with hx | rfl | ⟨y, hy, rfl⟩
    · exact hchars x hx
    · decide
    · exact hnchars y hy
  refine ⟨⟨isLabel_iff.mpr ⟨?_, ?_, ?_⟩, ?_⟩, ?_, hlen⟩
  · refine ⟨c, ?_, hc⟩
    rw [toList_domainNameOf, hrest, List.cons_append, List.head?_append,
      head?_cutLabel (by decide) hcdash, Option.some_or]
  · -- the name ends in a digit of the digest
    have hne : (hexDigits digest).take 6 ≠ [] := by
      rw [← List.length_pos_iff, hlen]
      decide
    refine ⟨((hexDigits digest).take 6).getLast hne, ?_,
      isAlphanumeric_of_mem_hexDigits (List.mem_of_mem_take (List.getLast_mem hne))⟩
    rw [toList_domainNameOf, List.getLast?_append, List.getLast?_cons,
      List.getLast?_eq_some_getLast hne]
    rfl
  · intro x hx
    rw [toList_domainNameOf, List.mem_append, List.mem_cons] at hx
    rcases hx with hx | rfl | hx
    · exact hlabel x ((cutLabel_isPrefix _ _).subset hx)
    · decide
    · rw [isLabelChar, isAlphanumeric_of_mem_hexDigits (List.mem_of_mem_take hx), Bool.true_or]
  · have hcut := length_cutLabel_le 56
      (nmspace.toList ++ '-' :: name.toList.map fun c => if c = '.' then '-' else c)
    rw [toList_domainNameOf, List.length_append, List.length_cons, hlen]
    omega
  · rw [toList_domainNameOf]
    exact List.suffix_append _ _

/-- **Domain names are always valid DNS labels.** For every namespace that is a
label and every object name that is a subdomain, whatever the digest is, the
domain's name is a label; and it ends in a dash and the first six digits of
the digest of namespace and name. -/
theorem domainName_isDNS1123Label (m : LibvirtMachine) (hns : IsDNS1123Label m.nmspace)
    (hname : IsDNS1123Subdomain m.name) :
    (∀ digest : Bytes, digest.length = 32 →
      IsDNS1123Label (domainNameOf digest m.nmspace m.name)
      ∧ ('-' :: (hexDigits digest).take 6) <:+ (domainNameOf digest m.nmspace m.name).toList)
    ∧ IsDNS1123Label (domainName m)
    ∧ ('-' :: (hexDigits (Sha256.sum256 (m.nmspace ++ "/" ++ m.name).toUTF8.data.toList)).take 6)
      <:+ (domainName m).toList
    ∧ ((hexDigits (Sha256.sum256 (m.nmspace ++ "/" ++ m.name).toUTF8.data.toList)).take 6).length
      = 6 := by
  refine ⟨fun digest hdigest => ?_, domainNameOf_label ?_ hns hname⟩
  · have h := domainNameOf_label (show 3 ≤ digest.length by omega) hns hname
    exact ⟨h.1, h.2.1⟩
  · rw [Sha256.length_sum256]
    decide

theorem domainName_isDNS1123Label_dotted :
    IsDNS1123Label (domainName { sampleMachine with name := "node-1.example.com" }) :=
  (domainName_isDNS1123Label _ (by decide +kernel) (by decide +kernel)).2.1

end LibvirtProvider

import Mathlib

/-!
# Two ways to read a query string

A query string is text with parameters in it, and there is more than one way
to read it. The *form* reading cuts it at `&`, drops a section with a `;` or a
broken escape, and takes `+` for a space (`parseQuery`). The *plain* reading
cuts it at `&` and at `;`, leaves a broken escape as it is, and takes `+` for
itself (`readParameters`). A writer of forms (`encode`) writes a space as `+`
and escapes everything else that is not a letter, a digit or one of `-_.~`.

This module is about text that is read as a form, changed, written, and then
read plainly. One parameter that goes that way comes out with its spaces
turned into `+` (`readParameter_pairText`), whichever way it was read first
(`parseSection_eq_some`). So what a plain reader had from the original
text it has from the new one exactly if no parameter was dropped and none has
a space (`perm_recode_iff`).
-/

namespace QueryText

/-- Text as bytes. An escape can stand for any byte, so that a decoded text
need not be valid UTF-8 and is no string of characters. -/
abbrev Text := List UInt8

/-- A text in ASCII. -/
def ascii (s : String) : Text := s.toList.map Char.toUInt8

/-! ## Escapes -/

/-- The value of a hexadecimal digit. -/
def hexValue (b : UInt8) : Option ℕ :=
  if '0'.toUInt8 ≤ b ∧ b ≤ '9'.toUInt8 then some (b - '0'.toUInt8).toNat
  else if 'a'.toUInt8 ≤ b ∧ b ≤ 'f'.toUInt8 then some ((b - 'a'.toUInt8).toNat + 10)
  else if 'A'.toUInt8 ≤ b ∧ b ≤ 'F'.toUInt8 then some ((b - 'A'.toUInt8).toNat + 10)
  else none

/-- A hexadecimal digit, in upper case. -/
def hexDigit (n : ℕ) : UInt8 :=
  if n < 10 then '0'.toUInt8 + n.toUInt8 else 'A'.toUInt8 + (n - 10).toUInt8

/-- Percent-decoding. What is not an escape stays as it is, a broken escape
among it, so that every text has a decoding. -/
def percentDecode : Text → Text
  | [] => []
  | b :: rest =>
    if b = '%'.toUInt8 then
      match rest with
      | h :: l :: rest' =>
        match hexValue h, hexValue l with
        | some hi, some lo => (16 * hi + lo).toUInt8 :: percentDecode rest'
        | _, _ => b :: percentDecode (h :: l :: rest')
      | [d] => b :: percentDecode [d]
      | [] => [b]
    else b :: percentDecode rest

/-- Decoding of a component of a form: a broken escape is an error, and `+` is
a space. These are the two differences from `percentDecode`. -/
def queryUnescape : Text → Option Text
  | [] => some []
  | b :: rest =>
    if b = '%'.toUInt8 then
      match rest with
      | h :: l :: rest' =>
        match hexValue h, hexValue l with
        | some hi, some lo => (queryUnescape rest').map ((16 * hi + lo).toUInt8 :: ·)
        | _, _ => none
      | _ => none
    else if b = '+'.toUInt8 then (queryUnescape rest).map (' '.toUInt8 :: ·)
    else (queryUnescape rest).map (b :: ·)

/-- The bytes that are written as they are. -/
def isUnreserved (b : UInt8) : Bool :=
  ('a'.toUInt8 ≤ b ∧ b ≤ 'z'.toUInt8) ∨ ('A'.toUInt8 ≤ b ∧ b ≤ 'Z'.toUInt8)
    ∨ ('0'.toUInt8 ≤ b ∧ b ≤ '9'.toUInt8) ∨ b ∈ ascii "-_.~"

/-- A byte in a component of a form. The space is the one byte that is not
written as an escape and does not stand for itself either. -/
def escapeByte (b : UInt8) : Text :=
  if isUnreserved b then [b]
  else if b = ' '.toUInt8 then ['+'.toUInt8]
  else ['%'.toUInt8, hexDigit (b.toNat / 16), hexDigit (b.toNat % 16)]

/-- A component of a form. -/
def queryEscape (s : Text) : Text := s.flatMap escapeByte

/-- A text with its spaces turned into `+`. This is what a component becomes
when it is written for one reading and read in the other. -/
def plusForSpace (s : Text) : Text := s.map fun b => if b = ' '.toUInt8 then '+'.toUInt8 else b

theorem space_notMem_plusForSpace (s : Text) : ' '.toUInt8 ∉ plusForSpace s := by
  intro h
  obtain ⟨b, -, hb⟩ := List.mem_map.mp h
  split at hb
  · exact absurd hb (by decide)
  · rename_i hne
    exact hne hb

theorem plusForSpace_eq_self {s : Text} : plusForSpace s = s ↔ ' '.toUInt8 ∉ s := by
  constructor
  · intro h
    rw [← h]
    exact space_notMem_plusForSpace s
  · intro h
    have hmap : plusForSpace s = s.map id :=
      List.map_congr_left fun b hb => if_neg (by
        rintro rfl
        exact h hb)
    rw [hmap, List.map_id]

@[simp] theorem plusForSpace_eq_nil {s : Text} : plusForSpace s = [] ↔ s = [] := List.map_eq_nil_iff

/-- A text without `+` is its own only preimage, if it has no space. -/
theorem plusForSpace_eq_iff {s t : Text} (hplus : '+'.toUInt8 ∉ t) (hspace : ' '.toUInt8 ∉ t) :
    plusForSpace s = t ↔ s = t := by
  constructor
  · rintro rfl
    refine (plusForSpace_eq_self.mpr fun hs => hplus ?_).symm
    exact List.mem_map.mpr ⟨' '.toUInt8, hs, if_pos rfl⟩
  · rintro rfl
    exact plusForSpace_eq_self.mpr hspace

theorem hexValue_hexDigit : ∀ n < 16, hexValue (hexDigit n) = some n := by decide

theorem percentDecode_cons_of_ne {b : UInt8} (h : b ≠ '%'.toUInt8) (s : Text) :
    percentDecode (b :: s) = b :: percentDecode s := by
  rw [percentDecode.eq_def]
  exact if_neg h

/-- **One byte, escaped and decoded.** -/
theorem percentDecode_escapeByte (b : UInt8) (s : Text) :
    percentDecode (escapeByte b ++ s)
      = (if b = ' '.toUInt8 then '+'.toUInt8 else b) :: percentDecode s := by
  unfold escapeByte
  split
  · rename_i h
    have hpercent : b ≠ '%'.toUInt8 := by
      rintro rfl
      exact absurd h (by decide)
    have hspace : b ≠ ' '.toUInt8 := by
      rintro rfl
      exact absurd h (by decide)
    rw [if_neg hspace]
    exact percentDecode_cons_of_ne hpercent s
  · by_cases hspace : b = ' '.toUInt8
    · rw [if_pos hspace, if_pos hspace]
      exact percentDecode_cons_of_ne (by decide) s
    · rw [if_neg hspace, if_neg hspace]
      have hlt : b.toNat < 256 := b.toNat_lt
      have hhi := hexValue_hexDigit (b.toNat / 16) (by omega)
      have hlo := hexValue_hexDigit (b.toNat % 16) (by omega)
      show percentDecode ('%'.toUInt8 :: hexDigit _ :: hexDigit _ :: s) = _
      rw [percentDecode, if_pos rfl]
      simp only [hhi, hlo, Nat.div_add_mod]
      exact congrArg (· :: percentDecode s) (UInt8.ofNat_toNat (x := b))

/-- **A component, written and read plainly**, comes out with its spaces
turned into `+`, and is otherwise what it was. -/
theorem percentDecode_queryEscape (s : Text) :
    percentDecode (queryEscape s) = plusForSpace s := by
  induction s with
  | nil => rfl
  | cons b s ih =>
    show percentDecode (escapeByte b ++ queryEscape s) = _
    rw [percentDecode_escapeByte, ih]
    rfl

/-- **A component, read both ways**: the readings are the same up to spaces. A
`+` of the original is a space in the one and itself in the other, and turning
the spaces of both makes them equal. -/
theorem plusForSpace_of_queryUnescape {s t : Text} (h : queryUnescape s = some t) :
    plusForSpace t = plusForSpace (percentDecode s) := by
  fun_induction queryUnescape s generalizing t with
  | case1 =>
    cases h
    rfl
  | case2 h' l rest hi lo hhi hlo ih =>
    obtain ⟨t', ht', rfl⟩ := Option.map_eq_some_iff.mp h
    rw [percentDecode, if_pos rfl]
    simp only [hhi, hlo]
    exact congrArg (_ :: ·) (ih ht')
  | case3 => cases h
  | case4 => cases h
  | case5 rest hne ih =>
    obtain ⟨t', ht', rfl⟩ := Option.map_eq_some_iff.mp h
    rw [percentDecode_cons_of_ne hne]
    exact congrArg ('+'.toUInt8 :: ·) (ih ht')
  | case6 b rest hpercent hplus ih =>
    obtain ⟨t', ht', rfl⟩ := Option.map_eq_some_iff.mp h
    rw [percentDecode_cons_of_ne hpercent]
    exact congrArg (_ :: ·) (ih ht')

theorem percentDecode_eq_nil {s : Text} : percentDecode s = [] ↔ s = [] := by
  fun_cases percentDecode s <;> simp [*]

theorem queryEscape_eq_nil {s : Text} : queryEscape s = [] ↔ s = [] := by
  constructor
  · intro h
    have hdecode := percentDecode_queryEscape s
    rw [h] at hdecode
    exact plusForSpace_eq_nil.mp hdecode.symm
  · rintro rfl
    rfl

theorem hexDigit_isUnreserved : ∀ n < 16, isUnreserved (hexDigit n) = true := by decide

/-- What is written is unreserved, an escape or a `+`. -/
theorem mem_queryEscape {s : Text} {b : UInt8} (h : b ∈ queryEscape s) :
    isUnreserved b = true ∨ b = '%'.toUInt8 ∨ b = '+'.toUInt8 := by
  obtain ⟨c, -, hb⟩ := List.mem_flatMap.mp h
  have hlt : c.toNat < 256 := c.toNat_lt
  unfold escapeByte at hb
  split at hb
  · rename_i hc
    exact Or.inl (List.mem_singleton.mp hb ▸ hc)
  · split at hb
    · exact Or.inr (Or.inr (List.mem_singleton.mp hb))
    · rcases List.mem_cons.mp hb with rfl | hb
      · exact Or.inr (Or.inl rfl)
      · rcases List.mem_cons.mp hb with rfl | hb
        · exact Or.inl (hexDigit_isUnreserved _ (by omega))
        · rw [List.mem_singleton.mp hb]
          exact Or.inl (hexDigit_isUnreserved _ (by omega))

/-- No reserved byte is left in what is written. A separator in a value can
thus not be taken for one of the form. -/
theorem notMem_queryEscape {b : UInt8} (h : isUnreserved b = false) (hpercent : b ≠ '%'.toUInt8)
    (hplus : b ≠ '+'.toUInt8) (s : Text) : b ∉ queryEscape s := by
  intro hb
  rcases mem_queryEscape hb with hb | hb | hb
  · rw [h] at hb
    cases hb
  · exact hpercent hb
  · exact hplus hb

/-! ## Sections -/

/-- The text before the first occurrence of a byte. -/
def before (b : UInt8) (s : Text) : Text := s.takeWhile (· ≠ b)

/-- The text after the first occurrence of a byte, if there is one. -/
def after (b : UInt8) (s : Text) : Text := (s.dropWhile (· ≠ b)).drop 1

section Cut

variable {b : UInt8} {s t : Text}

private theorem ne_of_notMem (h : b ∉ s) : ∀ a ∈ s, decide (a ≠ b) = true := by
  intro a ha
  refine decide_eq_true ?_
  rintro rfl
  exact h ha

theorem before_append_cons (h : b ∉ s) : before b (s ++ b :: t) = s := by
  unfold before
  rw [List.takeWhile_append_of_pos (ne_of_notMem h)]
  simp

theorem after_append (h : b ∉ s) : after b (s ++ t) = after b t := by
  unfold after
  rw [List.dropWhile_append_of_pos (ne_of_notMem h)]

theorem after_append_cons (h : b ∉ s) : after b (s ++ b :: t) = t := by
  rw [after_append h]
  simp [after]

theorem before_of_notMem (h : b ∉ s) : before b s = s :=
  List.takeWhile_eq_self_iff.mpr (ne_of_notMem h)

theorem after_of_notMem (h : b ∉ s) : after b s = [] := by
  unfold after
  rw [List.dropWhile_eq_nil_iff.mpr (ne_of_notMem h)]
  rfl

/-- A text with a byte is its two sides. -/
theorem eq_before_append_after (h : b ∈ s) : s = before b s ++ b :: after b s := by
  obtain ⟨s₁, s₂, rfl, hs₁⟩ := List.eq_append_cons_of_mem h
  rw [before_append_cons hs₁, after_append_cons hs₁]

end Cut

/-- **A text split at two kinds of separators** is split at the one kind, and
then each part at the other. So the plain reading of a query can be made
section by section, as the form reading is. -/
theorem splitOnP_or {α : Type} (p q : α → Bool) (xs : List α) :
    (xs.splitOnP fun x => p x || q x) = (xs.splitOnP p).flatMap (·.splitOnP q) := by
  induction xs with
  | nil => rfl
  | cons x xs ih =>
    -- the part that `x` is in front of
    obtain ⟨part, parts, hparts⟩ := List.exists_cons_of_ne_nil (List.splitOnP_ne_nil p xs)
    obtain ⟨inner, inners, hinner⟩ := List.exists_cons_of_ne_nil (List.splitOnP_ne_nil q part)
    rw [hparts] at ih
    simp only [List.splitOnP_cons_eq_if_modifyHead, ih, hparts]
    cases hp : p x <;> cases hq : q x <;>
      simp [hq, hinner, List.splitOnP_cons_eq_if_modifyHead]

/-- The plain reading of a piece without separators: its name and its value,
and nothing if it has no name. -/
def readParameter (s : Text) : Option (Text × Text) :=
  if before '='.toUInt8 s = [] then none
  else some (percentDecode (before '='.toUInt8 s), percentDecode (after '='.toUInt8 s))

/-- **The plain reading** of a query string: it is cut at both separators, and
a piece without a name is passed over. -/
def readParameters (q : Text) : List (Text × Text) :=
  (q.splitOnP fun b => b == '&'.toUInt8 || b == ';'.toUInt8).filterMap readParameter

/-- The plain reading of a section between two `&`. -/
def readSection (s : Text) : List (Text × Text) :=
  (s.splitOn ';'.toUInt8).filterMap readParameter

theorem readParameters_eq_flatMap (q : Text) :
    readParameters q = (q.splitOn '&'.toUInt8).flatMap readSection := by
  unfold readParameters readSection
  rw [splitOnP_or, List.filterMap_flatMap]
  rfl

theorem readSection_of_notMem {s : Text} (h : ';'.toUInt8 ∉ s) :
    readSection s = (readParameter s).toList := by
  unfold readSection
  rw [List.splitOn_eq_singleton h]
  cases hread : readParameter s <;> simp [hread]

/-- The form reading of a section. It is dropped if it has a `;` in it, or if
its name or its value has a broken escape; the sections beside it are still
read. -/
def parseSection (s : Text) : Option (Text × Text) :=
  if ';'.toUInt8 ∈ s then none
  else if s = [] then none
  else
    match queryUnescape (before '='.toUInt8 s), queryUnescape (after '='.toUInt8 s) with
    | some key, some value => some (key, value)
    | _, _ => none

/-- **The form reading** of a query string, in the order of the text. That
there was an error in one of the sections is not told. -/
def parseQuery (q : Text) : List (Text × Text) := (q.splitOn '&'.toUInt8).filterMap parseSection

/-- A section that the form reading does not drop: no `;` and no broken
escape. -/
def WellFormed (s : Text) : Prop := ';'.toUInt8 ∉ s ∧ (queryUnescape s).isSome = true

instance (s : Text) : Decidable (WellFormed s) := instDecidableAnd

/-- The value of a parameter is set: it replaces those that are there, of
which there can be several. -/
def setValue (values : List (Text × Text)) (p : Text × Text) : List (Text × Text) :=
  values.filter (·.1 ≠ p.1) ++ [p]

/-- A parameter in a form. -/
def pairText (p : Text × Text) : Text := queryEscape p.1 ++ '='.toUInt8 :: queryEscape p.2

/-- **Writing a form**, with the names sorted. Values of one name keep their
order. -/
def encode (values : List (Text × Text)) : Text :=
  ['&'.toUInt8].intercalate ((values.insertionSort (·.1 ≤ ·.1)).map pairText)

/-- What becomes of a parameter that is written in a form and read plainly.
One without a name is written, and passed over by the reader. -/
def recode (p : Text × Text) : Option (Text × Text) :=
  if p.1 = [] then none else some (plusForSpace p.1, plusForSpace p.2)

theorem readParameter_pairText (p : Text × Text) : readParameter (pairText p) = recode p := by
  have heq : '='.toUInt8 ∉ queryEscape p.1 :=
    notMem_queryEscape (by decide) (by decide) (by decide) _
  unfold readParameter pairText recode
  rw [before_append_cons heq, after_append_cons heq, percentDecode_queryEscape,
    percentDecode_queryEscape]
  simp only [queryEscape_eq_nil]

/-- A reserved byte other than `=` is not in a parameter that is written. -/
theorem notMem_pairText {b : UInt8} (h : isUnreserved b = false) (hpercent : b ≠ '%'.toUInt8)
    (hplus : b ≠ '+'.toUInt8) (heq : b ≠ '='.toUInt8) (p : Text × Text) : b ∉ pairText p := by
  unfold pairText
  rw [List.mem_append, List.mem_cons, not_or, not_or]
  exact ⟨notMem_queryEscape h hpercent hplus _, heq, notMem_queryEscape h hpercent hplus _⟩

theorem mem_intercalate {b c : UInt8} (h : b ≠ c) {parts : List Text} :
    b ∈ [c].intercalate parts ↔ ∃ part ∈ parts, b ∈ part := by
  induction parts with
  | nil => simp [List.intercalate]
  | cons part parts ih =>
    cases parts with
    | nil => simp [List.intercalate]
    | cons part' parts =>
      have hcons : [c].intercalate (part :: part' :: parts)
          = part ++ c :: [c].intercalate (part' :: parts) := by
        simp [List.intercalate]
      rw [hcons, List.mem_append, List.mem_cons, ih]
      simp [h]

/-- A reserved byte other than `=` and `&` is not in a form. -/
theorem notMem_encode {b : UInt8} (h : isUnreserved b = false) (hpercent : b ≠ '%'.toUInt8)
    (hplus : b ≠ '+'.toUInt8) (heq : b ≠ '='.toUInt8) (hamp : b ≠ '&'.toUInt8)
    (values : List (Text × Text)) : b ∉ encode values := by
  intro hb
  obtain ⟨part, hpart, hb⟩ := (mem_intercalate hamp).mp hb
  obtain ⟨p, -, rfl⟩ := List.mem_map.mp hpart
  exact notMem_pairText h hpercent hplus heq p hb

/-- **A form, read plainly**: every parameter is there, with its spaces
turned, in the order of the names and not the one they were given in. -/
theorem readParameters_encode (values : List (Text × Text)) :
    (readParameters (encode values)).Perm (values.filterMap recode) := by
  have hsorted : readParameters (encode values)
      = (values.insertionSort (·.1 ≤ ·.1)).filterMap recode := by
    rw [readParameters_eq_flatMap]
    unfold encode
    generalize values.insertionSort (·.1 ≤ ·.1) = sorted
    have hsections : ∀ p, readSection (pairText p) = (recode p).toList := fun p => by
      rw [readSection_of_notMem (notMem_pairText (by decide) (by decide) (by decide) (by decide) p),
        readParameter_pairText]
    cases sorted with
    | nil => rfl
    | cons p ps =>
      rw [List.splitOn_intercalate _ _ (by simp)]
      · rw [List.flatMap_map, List.filterMap_eq_flatMap_toList]
        exact List.flatMap_congr fun p _ => hsections p
      · intro l hl
        obtain ⟨p, -, rfl⟩ := List.mem_map.mp hl
        exact notMem_pairText (by decide) (by decide) (by decide) (by decide) p
  rw [hsorted]
  exact (List.perm_insertionSort _ values).filterMap recode

/-! ## What is left of a query string -/

theorem queryUnescape_append_isSome (s t : Text) :
    (queryUnescape (s ++ '='.toUInt8 :: t)).isSome
      = ((queryUnescape s).isSome && (queryUnescape t).isSome) := by
  fun_induction queryUnescape s with
  | case1 =>
    rw [List.nil_append, queryUnescape.eq_def]
    simp [show '='.toUInt8 ≠ '%'.toUInt8 by decide, show '='.toUInt8 ≠ '+'.toUInt8 by decide]
  | case2 h l rest hi lo hhi hlo ih =>
    rw [List.cons_append, List.cons_append, List.cons_append, queryUnescape.eq_def]
    simp [hhi, hlo, ih]
  | case3 h l rest hbad =>
    rw [List.cons_append, List.cons_append, List.cons_append, queryUnescape.eq_def]
    cases hhi : hexValue h <;> cases hlo : hexValue l <;> simp [hhi, hlo]
    exact (hbad _ _ hhi hlo).elim
  | case4 rest hbad =>
    -- an escape that is cut short meets the `=`, which is no digit
    have hdigit : hexValue '='.toUInt8 = none := by decide
    rw [List.cons_append, queryUnescape.eq_def]
    match rest, hbad with
    | [], _ => cases t <;> simp [hdigit]
    | [d], _ => simp [hdigit]
    | h :: l :: rest', hbad => exact (hbad h l rest' rfl).elim
  | case5 rest hne ih =>
    rw [List.cons_append, queryUnescape.eq_def]
    simp [hne, ih]
  | case6 b rest hpercent hplus ih =>
    rw [List.cons_append, queryUnescape.eq_def]
    simp [hpercent, hplus, ih]

theorem queryUnescape_isSome (s : Text) :
    (queryUnescape s).isSome
      = ((queryUnescape (before '='.toUInt8 s)).isSome
          && (queryUnescape (after '='.toUInt8 s)).isSome) := by
  by_cases h : '='.toUInt8 ∈ s
  · nth_rewrite 1 [eq_before_append_after h]
    exact queryUnescape_append_isSome _ _
  · rw [before_of_notMem h, after_of_notMem h]
    exact (Bool.and_true _).symm

/-- The form reading drops what is empty and what is not well formed. -/
theorem parseSection_isSome {s : Text} :
    (parseSection s).isSome = true ↔ s ≠ [] ∧ WellFormed s := by
  unfold parseSection WellFormed
  rw [queryUnescape_isSome]
  split
  · rename_i h
    simp [h]
  · rename_i h
    split
    · rename_i hnil
      simp [hnil]
    · rename_i hnil
      cases queryUnescape (before '='.toUInt8 s) <;> cases queryUnescape (after '='.toUInt8 s) <;>
        simp [h, hnil]

/-- **A section that is not dropped, read both ways**: the plain reading is
the form reading, up to spaces. In such a section there is no `;`, so it holds
one parameter in both. -/
theorem parseSection_eq_some {s : Text} {p : Text × Text} (h : parseSection s = some p) :
    (recode p).toList = (readSection s).map (Prod.map plusForSpace plusForSpace) := by
  have hsemi : ';'.toUInt8 ∉ s := (parseSection_isSome.mp (by rw [h]; rfl)).2.1
  rw [readSection_of_notMem hsemi]
  unfold parseSection at h
  split at h
  · cases h
  split at h
  · cases h
  split at h
  · rename_i key value hkey hvalue
    cases h
    have hname := plusForSpace_of_queryUnescape hkey
    have hval := plusForSpace_of_queryUnescape hvalue
    have hnil : key = [] ↔ before '='.toUInt8 s = [] := by
      rw [← plusForSpace_eq_nil, hname, plusForSpace_eq_nil, percentDecode_eq_nil]
    unfold recode readParameter
    by_cases hempty : key = []
    · rw [if_pos hempty, if_pos (hnil.mp hempty)]
      rfl
    · rw [if_neg hempty, if_neg (mt hnil.mpr hempty), hname, hval]
      rfl
  · cases h

/-- Lists that are each no longer than others, and together as long, are each
as long. If nothing is missing on the whole, nothing is missing in any
section. -/
theorem length_eq_of_flatMap {α β γ : Type} {f : α → List β} {g : α → List γ} {l : List α}
    (hle : ∀ a ∈ l, (f a).length ≤ (g a).length)
    (h : (l.flatMap f).length = (l.flatMap g).length) :
    ∀ a ∈ l, (f a).length = (g a).length := by
  rw [List.length_flatMap, List.length_flatMap] at h
  induction l with
  | nil => exact fun a ha => nomatch ha
  | cons a l ih =>
    rw [List.map_cons, List.map_cons, List.sum_cons, List.sum_cons] at h
    have hrest : (l.map fun a => (f a).length).sum ≤ (l.map fun a => (g a).length).sum :=
      List.sum_le_sum fun a ha => hle a (List.mem_cons_of_mem _ ha)
    have hhead := hle a List.mem_cons_self
    intro a' ha'
    rcases List.mem_cons.mp ha' with rfl | ha'
    · omega
    · exact ih (fun a ha => hle a (List.mem_cons_of_mem _ ha)) (by omega) a' ha'

section Rest

variable (names : List Text)

/-- The parameters with other names. -/
def others (params : List (Text × Text)) : List (Text × Text) := params.filter (·.1 ∉ names)

/-- What a section of a form contributes, once it is written and read plainly.
The names that are set afterwards do not count. -/
def survivors (s : Text) : List (Text × Text) :=
  (others names (parseSection s).toList).filterMap recode

variable {names}

theorem survivors_of_none {s : Text} (h : parseSection s = none) : survivors names s = [] := by
  unfold survivors
  rw [h]
  rfl

section Names

variable (hnames : ∀ n ∈ names, '+'.toUInt8 ∉ n ∧ ' '.toUInt8 ∉ n)
include hnames

theorem plusForSpace_mem_iff {t : Text} : plusForSpace t ∈ names ↔ t ∈ names := by
  constructor
  · intro ht
    exact (plusForSpace_eq_iff (hnames _ ht).1 (hnames _ ht).2).mp rfl ▸ ht
  · intro ht
    rwa [plusForSpace_eq_self.mpr (hnames t ht).2]

theorem others_map (l : List (Text × Text)) :
    others names (l.map (Prod.map plusForSpace plusForSpace))
      = (others names l).map (Prod.map plusForSpace plusForSpace) := by
  unfold others
  rw [List.filter_map]
  refine congrArg _ (List.filter_congr fun p _ => ?_)
  exact decide_eq_decide.mpr (not_congr (plusForSpace_mem_iff hnames))

theorem filterMap_recode_others (l : List (Text × Text)) :
    (others names l).filterMap recode = others names (l.filterMap recode) := by
  unfold others
  rw [List.filterMap_filter, List.filter_filterMap]
  refine List.filterMap_congr fun p _ => ?_
  by_cases hnil : p.1 = []
  · simp [recode, hnil]
  · simp [recode, hnil, Option.filter_some, plusForSpace_mem_iff hnames]

/-- Of a section that is not dropped everything survives, with the spaces
turned; of one that is dropped, nothing does. -/
theorem survivors_of_some {s : Text} {p : Text × Text} (h : parseSection s = some p) :
    survivors names s
      = (others names (readSection s)).map (Prod.map plusForSpace plusForSpace) := by
  unfold survivors
  rw [filterMap_recode_others hnames, ← others_map hnames, ← parseSection_eq_some h, h]
  cases hrecode : recode p <;> simp [hrecode]

theorem length_survivors_le (s : Text) :
    (survivors names s).length ≤ (others names (readSection s)).length := by
  cases h : parseSection s with
  | none =>
    rw [survivors_of_none h]
    exact Nat.zero_le _
  | some p => rw [survivors_of_some hnames h, List.length_map]

/-- What survives has no space. -/
theorem space_notMem_of_mem_survivors {s : Text} {p : Text × Text} (h : p ∈ survivors names s) :
    ' '.toUInt8 ∉ p.1 ∧ ' '.toUInt8 ∉ p.2 := by
  cases hs : parseSection s with
  | none =>
    rw [survivors_of_none hs] at h
    exact nomatch h
  | some r =>
    rw [survivors_of_some hnames hs] at h
    obtain ⟨p', -, rfl⟩ := List.mem_map.mp h
    exact ⟨space_notMem_plusForSpace _, space_notMem_plusForSpace _⟩

/-- Everything of a section survives if it is well formed and has no space, or
has nothing else than the names. -/
theorem survivors_eq {s : Text} (h : ∀ p ∈ others names (readSection s),
      WellFormed s ∧ ' '.toUInt8 ∉ p.1 ∧ ' '.toUInt8 ∉ p.2) :
    survivors names s = others names (readSection s) := by
  cases hs : parseSection s with
  | none =>
    rw [survivors_of_none hs]
    cases hothers : others names (readSection s) with
    | nil => rfl
    | cons p ps =>
      have hp : p ∈ others names (readSection s) := hothers ▸ List.mem_cons_self
      have hne : s ≠ [] := by
        rintro rfl
        exact nomatch hp
      have hsome := parseSection_isSome.mpr ⟨hne, (h p hp).1⟩
      rw [hs] at hsome
      cases hsome
  | some r =>
    rw [survivors_of_some hnames hs]
    conv_rhs => rw [← List.map_id (others names (readSection s))]
    refine List.map_congr_left fun p hp => ?_
    obtain ⟨-, h₁, h₂⟩ := h p hp
    exact Prod.ext (plusForSpace_eq_self.mpr h₁) (plusForSpace_eq_self.mpr h₂)

/-- **What a plain reader still has**, of a query string that went through a
form: everything exactly if no section with a parameter is dropped and no
parameter has a space. A section can only lose, so that what one has lost is
not made up for by another. -/
theorem perm_recode_iff (q : Text) :
    ((others names (parseQuery q)).filterMap recode).Perm (others names (readParameters q))
      ↔ ∀ s ∈ q.splitOn '&'.toUInt8, ∀ p ∈ others names (readSection s),
          WellFormed s ∧ ' '.toUInt8 ∉ p.1 ∧ ' '.toUInt8 ∉ p.2 := by
  have hleft : (others names (parseQuery q)).filterMap recode
      = (q.splitOn '&'.toUInt8).flatMap (survivors names) := by
    have hparse : parseQuery q
        = (q.splitOn '&'.toUInt8).flatMap fun s => (parseSection s).toList :=
      List.filterMap_eq_flatMap_toList _ _
    rw [hparse]
    unfold others
    rw [List.filter_flatMap, List.filterMap_flatMap]
    rfl
  have hright : others names (readParameters q)
      = (q.splitOn '&'.toUInt8).flatMap fun s => others names (readSection s) := by
    rw [readParameters_eq_flatMap]
    exact List.filter_flatMap
  rw [hleft, hright]
  constructor
  · intro hperm s hs p hp
    have hlength := length_eq_of_flatMap (fun s _ => length_survivors_le hnames s)
      hperm.length_eq s hs
    have hpos : 0 < (survivors names s).length := by
      rw [hlength]
      exact List.length_pos_of_mem hp
    constructor
    · have hsome : (parseSection s).isSome = true := by
        by_contra hnone
        rw [survivors_of_none (by simpa using hnone)] at hpos
        exact absurd hpos (lt_irrefl 0)
      exact (parseSection_isSome.mp hsome).2
    · obtain ⟨s', -, hs'⟩ := List.mem_flatMap.mp
        (hperm.mem_iff.mpr (List.mem_flatMap.mpr ⟨s, hs, hp⟩))
      exact space_notMem_of_mem_survivors hnames hs'
  · intro h
    rw [List.flatMap_congr fun s hs => survivors_eq hnames (h s hs)]

end Names

end Rest

/-! ## Parameters that are set -/

/-- **Settings**: parameters with different names, each of which is written as
it is. Then one does not replace another, and each can be found again under
its name. -/
structure Settings (settings : List (Text × Text)) : Prop where
  nodup : (settings.map Prod.fst).Nodup
  plain : ∀ s ∈ settings, s.1 ≠ [] ∧ '+'.toUInt8 ∉ s.1 ∧ ' '.toUInt8 ∉ s.1

section Settings

variable {settings : List (Text × Text)}

/-- Settings made one after the other. -/
theorem foldl_setValue (hnodup : (settings.map Prod.fst).Nodup) (values : List (Text × Text)) :
    settings.foldl setValue values = others (settings.map Prod.fst) values ++ settings := by
  induction settings using List.reverseRecOn with
  | nil => simp [others]
  | append_singleton settings s ih =>
    rw [List.map_append, List.nodup_append] at hnodup
    obtain ⟨hnodup, -, hdisjoint⟩ := hnodup
    have hne : ∀ t ∈ settings, t.1 ≠ s.1 := fun t ht =>
      hdisjoint t.1 (List.mem_map_of_mem ht) s.1 (List.mem_singleton_self _)
    rw [List.foldl_append, ih hnodup]
    show (others (settings.map Prod.fst) values ++ settings).filter (·.1 ≠ s.1) ++ [s] = _
    rw [List.filter_append, List.filter_eq_self.mpr fun t ht => decide_eq_true (hne t ht),
      List.append_assoc]
    refine congrArg (· ++ (settings ++ [s])) ?_
    unfold others
    rw [List.filter_filter]
    refine List.filter_congr fun t _ => ?_
    rw [List.map_append, ← Bool.decide_and]
    exact decide_eq_decide.mpr (by simp [not_or, and_comm])

theorem filter_fst_eq (hnodup : (settings.map Prod.fst).Nodup) {s : Text × Text}
    (hs : s ∈ settings) : settings.filter (·.1 = s.1) = [s] := by
  induction settings with
  | nil => exact nomatch hs
  | cons t settings ih =>
    rw [List.map_cons, List.nodup_cons] at hnodup
    rcases List.mem_cons.mp hs with rfl | hs
    · have hrest : settings.filter (·.1 = s.1) = [] := by
        refine List.filter_eq_nil_iff.mpr fun t ht heq => hnodup.1 ?_
        exact of_decide_eq_true heq ▸ List.mem_map_of_mem ht
      rw [List.filter_cons, if_pos (decide_eq_true rfl), hrest]
    · rw [List.filter_cons_of_neg, ih hnodup.2 hs]
      intro heq
      exact hnodup.1 (of_decide_eq_true heq ▸ List.mem_map_of_mem hs)

namespace Settings

variable (h : Settings settings)
include h

theorem names_plain : ∀ n ∈ settings.map Prod.fst, '+'.toUInt8 ∉ n ∧ ' '.toUInt8 ∉ n := by
  intro n hn
  obtain ⟨s, hs, rfl⟩ := List.mem_map.mp hn
  exact (h.plain s hs).2

theorem filterMap_recode :
    settings.filterMap recode = settings.map fun s => (s.1, plusForSpace s.2) := by
  rw [← List.filterMap_eq_map]
  refine List.filterMap_congr fun s hs => ?_
  obtain ⟨hnil, -, hspace⟩ := h.plain s hs
  unfold recode
  rw [if_neg hnil, plusForSpace_eq_self.mpr hspace]
  rfl

/-- The plain reading of a form with the settings: what is left of the form,
and the settings. Their values are subject to the turning of spaces like any
other. -/
theorem readParameters_perm (values : List (Text × Text)) :
    (readParameters (encode (settings.foldl setValue values))).Perm
      ((others (settings.map Prod.fst) values).filterMap recode
        ++ settings.map fun s => (s.1, plusForSpace s.2)) := by
  rw [foldl_setValue h.nodup, ← h.filterMap_recode, ← List.filterMap_append]
  exact readParameters_encode _

/-- **The other parameters** are what is left of the form: setting a parameter
does nothing to one of another name. -/
theorem others_readParameters (values : List (Text × Text)) :
    (others (settings.map Prod.fst)
        (readParameters (encode (settings.foldl setValue values)))).Perm
      ((others (settings.map Prod.fst) values).filterMap recode) := by
  refine ((h.readParameters_perm values).filter _).trans (List.Perm.of_eq ?_)
  rw [List.filter_append]
  have hset : (settings.map fun s => (s.1, plusForSpace s.2)).filter
      (fun p => decide (p.1 ∉ settings.map Prod.fst)) = [] := by
    refine List.filter_eq_nil_iff.mpr fun p hp hnot => of_decide_eq_true hnot ?_
    obtain ⟨s, hs, rfl⟩ := List.mem_map.mp hp
    exact List.mem_map.mpr ⟨s, hs, rfl⟩
  rw [hset, List.append_nil, filterMap_recode_others h.names_plain]
  unfold others
  rw [List.filter_filter]
  exact List.filter_congr fun p _ => Bool.and_self _

/-- **A setting** is the only parameter of its name. What the original text
had under this name is gone, however often it was there. -/
theorem filter_readParameters (values : List (Text × Text)) {s : Text × Text}
    (hs : s ∈ settings) :
    (readParameters (encode (settings.foldl setValue values))).filter (·.1 = s.1)
      = [(s.1, plusForSpace s.2)] := by
  refine List.perm_singleton.mp (((h.readParameters_perm values).filter _).trans
    (List.Perm.of_eq ?_))
  have hrest : ((others (settings.map Prod.fst) values).filterMap recode).filter
      (fun p => decide (p.1 = s.1)) = [] := by
    rw [filterMap_recode_others h.names_plain]
    refine List.filter_eq_nil_iff.mpr fun p hp heq => ?_
    refine of_decide_eq_true (List.mem_filter.mp hp).2 ?_
    rw [of_decide_eq_true heq]
    exact List.mem_map_of_mem hs
  have hnodup : ((settings.map fun s => (s.1, plusForSpace s.2)).map Prod.fst).Nodup := by
    rw [List.map_map]
    exact h.nodup
  rw [List.filter_append, hrest]
  exact filter_fst_eq hnodup (List.mem_map_of_mem (f := fun s => (s.1, plusForSpace s.2)) hs)

theorem encode_ne_nil (hne : settings ≠ []) (values : List (Text × Text)) :
    encode (settings.foldl setValue values) ≠ [] := by
  obtain ⟨s, hs⟩ := List.exists_mem_of_ne_nil settings hne
  have hread := h.filter_readParameters values hs
  intro hnil
  rw [hnil] at hread
  cases hread

end Settings

end Settings

end QueryText

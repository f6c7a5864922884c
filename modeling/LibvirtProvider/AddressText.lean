import LibvirtProvider.Allocation

/-!
# Addresses in the network definition and in the allocator

The network definition has addresses as text, and the allocator counts in
numbers. The ends of the DHCP range are read as numbers, a candidate is
written as text again, and that text is what it is looked up under among the
addresses of the host entries. So the two have to be inverse to each other,
or an address that is taken is not found and is given away a second time.

They are. A number that is written and read is the number
(`addressNumber_formatIPv4`). The other way round, what is written is exactly
the canonical text: four decimal numbers up to 255 without leading zeros
(`isDottedDecimal_iff`). The parser accepts no other text in this notation
(`parseIPv4_eq_some`), so an entry is found under a candidate exactly if its
address is read as the candidate (`hostIPSet_formatIPv4`). What this leaves
out is the notation of IPv6, in which an IPv4 address has more than one text:
an entry written that way is not found.
-/

namespace LibvirtProvider

/-! ## Decimal numerals -/

section Decimal

variable {n : ℕ} {c : Char} {l : List Char}

theorem sub_lt_ten_of_isDigit (h : c.isDigit = true) : c.toNat - 48 < 10 := by
  have hc : 48 ≤ c.toNat ∧ c.toNat ≤ 57 := Char.isDigit_iff_toNat.mp h
  omega

theorem digitChar_of_isDigit (h : c.isDigit = true) : Nat.digitChar (c.toNat - 48) = c := by
  have hc : 48 ≤ c.toNat ∧ c.toNat ≤ 57 := Char.isDigit_iff_toNat.mp h
  rw [← Char.toNat_inj, Nat.toNat_digitChar_of_lt_ten (sub_lt_ten_of_isDigit h)]
  omega

/-- A digit at the end of a numeral. -/
theorem toDigits_snoc (hn : 0 < n) (hc : c.isDigit = true) :
    Nat.toDigits 10 n ++ [c] = Nat.toDigits 10 (n * 10 + (c.toNat - 48)) := by
  have hd := sub_lt_ten_of_isDigit hc
  have happend := Nat.toDigits_append_toDigits (b := 10) (by decide) hn hd
  rwa [Nat.toDigits_of_lt_base hd, digitChar_of_isDigit hc, Nat.mul_comm] at happend

/-- More digits at the end of a numeral. -/
theorem toDigits_append (hn : 0 < n) (hl : ∀ c ∈ l, c.isDigit = true) :
    Nat.toDigits 10 n ++ l = Nat.toDigits 10 (Nat.ofDigitChars 10 l n) := by
  induction l generalizing n with
  | nil => rw [List.append_nil, Nat.ofDigitChars_nil]
  | cons c l ih =>
    have hc := hl c List.mem_cons_self
    rw [List.append_cons, toDigits_snoc hn hc, ih (by omega) fun d hd =>
      hl d (List.mem_cons_of_mem c hd), Nat.ofDigitChars_cons, Nat.mul_comm]
    rfl

/-- **A numeral without a leading zero is the numeral of its value.** This is
the round trip for one octet. -/
theorem toDigits_ofDigitChars (hne : l ≠ []) (hl : ∀ c ∈ l, c.isDigit = true)
    (hzero : l.head? = some '0' → l = ['0']) :
    Nat.toDigits 10 (Nat.ofDigitChars 10 l 0) = l := by
  cases l with
  | nil => exact absurd rfl hne
  | cons c l =>
    have hc := hl c List.mem_cons_self
    by_cases h0 : c = '0'
    · rw [hzero (by rw [h0]; rfl)]
      decide
    · -- the first digit is not zero, and the others come after it
      have hpos : 0 < c.toNat - 48 := by
        have hc' : 48 ≤ c.toNat ∧ c.toNat ≤ 57 := Char.isDigit_iff_toNat.mp hc
        have h48 : c.toNat ≠ 48 := fun h => h0 (Char.toNat_inj.mp h)
        omega
      rw [Nat.ofDigitChars_cons, Nat.mul_zero, Nat.zero_add]
      have happend := toDigits_append hpos fun d hd => hl d (List.mem_cons_of_mem c hd)
      rw [Nat.toDigits_of_lt_base (sub_lt_ten_of_isDigit hc), digitChar_of_isDigit hc] at happend
      exact happend.symm

/-- Only the numeral of zero begins with one. -/
theorem toDigits_of_head? (h : (Nat.toDigits 10 n).head? = some '0') :
    Nat.toDigits 10 n = ['0'] := by
  induction n using Nat.strongRecOn with
  | ind n ih =>
    by_cases hn : n < 10
    · rw [Nat.toDigits_of_lt_base hn] at h ⊢
      rw [Option.some.inj h]
    · rw [Nat.toDigits_of_base_le (by decide) (by omega),
        List.head?_append_of_ne_nil _ Nat.toDigits_ne_nil] at h
      have hdiv := ih (n / 10) (by omega) h
      have hvalue := Nat.ofDigitChars_toDigits (b := 10) (n := n / 10) (by decide) (by decide)
      rw [hdiv] at hvalue
      have h0 : n / 10 = 0 := hvalue.symm.trans (by decide)
      omega

end Decimal

/-! ## Canonical text -/

/-- **An octet as it is written**: digits, without a leading zero, of a
number up to 255. -/
def IsOctet (l : List Char) : Prop :=
  l ≠ [] ∧ l.all Char.isDigit = true ∧ (l.head? = some '0' → l = ['0'])
    ∧ Nat.ofDigitChars 10 l 0 ≤ 255

instance : DecidablePred IsOctet := fun _ => inferInstanceAs (Decidable (_ ∧ _))

/-- **Canonical dotted-decimal text**: four octets with dots between them. It
is defined on the text, without the functions that write and read it, so that
these can be held against it. -/
def IsDottedDecimal (s : String) : Prop :=
  (s.toList.splitOn '.').length = 4 ∧ ∀ part ∈ s.toList.splitOn '.', IsOctet part

instance : DecidablePred IsDottedDecimal := fun _ => inferInstanceAs (Decidable (_ ∧ _))

/-- An octet is the decimal text of a byte. -/
theorem isOctet_iff {l : List Char} : IsOctet l ↔ ∃ x : UInt8, Nat.toDigits 10 x.toNat = l := by
  constructor
  · rintro ⟨hne, hdigits, hzero, hle⟩
    refine ⟨UInt8.ofNat (Nat.ofDigitChars 10 l 0), ?_⟩
    rw [UInt8.toNat_ofNat_of_lt' (Nat.lt_succ_of_le hle)]
    exact toDigits_ofDigitChars hne (List.all_eq_true.mp hdigits) hzero
  · rintro ⟨x, rfl⟩
    refine ⟨Nat.toDigits_ne_nil, List.all_eq_true.mpr fun c hc => ?_, toDigits_of_head?, ?_⟩
    · exact Nat.isDigit_of_mem_toDigits (by decide) (by decide) hc
    · rw [Nat.ofDigitChars_toDigits (by decide) (by decide)]
      exact Nat.le_of_lt_succ x.toNat_lt

theorem toList_dottedDecimal_eq (b : IP) :
    (dottedDecimal b).toList = ['.'].intercalate (b.map fun x => Nat.toDigits 10 x.toNat) := by
  rw [dottedDecimal, String.toList_intercalate, List.map_map]
  congr 1
  exact List.map_congr_left fun x _ => toList_octet x

theorem splitOn_dottedDecimal {b : IP} (hb : b ≠ []) :
    (dottedDecimal b).toList.splitOn '.' = b.map fun x => Nat.toDigits 10 x.toNat := by
  rw [toList_dottedDecimal_eq]
  refine List.splitOn_intercalate '.' (fun l hl hdot => ?_) (by simpa using hb)
  obtain ⟨x, -, rfl⟩ := List.mem_map.mp hl
  have hdigit := Nat.isDigit_of_mem_toDigits (by decide) (by decide) hdot
  exact absurd hdigit (by decide)

/-- **Canonical text is the text of four bytes.** -/
theorem isDottedDecimal_iff_bytes {s : String} :
    IsDottedDecimal s ↔ ∃ b : IP, b.length = 4 ∧ dottedDecimal b = s := by
  constructor
  · rintro ⟨hlength, hparts⟩
    have hrange : s.toList.splitOn '.'
        ∈ Set.range (List.map fun x : UInt8 => Nat.toDigits 10 x.toNat) := by
      rw [Set.range_list_map]
      exact fun part hpart => isOctet_iff.mp (hparts part hpart)
    obtain ⟨b, hb⟩ := hrange
    refine ⟨b, by rw [← hlength, ← hb, List.length_map], String.toList_inj.mp ?_⟩
    rw [toList_dottedDecimal_eq, hb]
    exact List.intercalate_splitOn '.'
  · rintro ⟨b, hb, rfl⟩
    have hsplit := splitOn_dottedDecimal (b := b) (by rintro rfl; cases hb)
    refine ⟨by rw [hsplit, List.length_map, hb], fun part hpart => ?_⟩
    rw [hsplit] at hpart
    obtain ⟨x, -, rfl⟩ := List.mem_map.mp hpart
    exact isOctet_iff.mpr ⟨x, rfl⟩

/-- **Canonical text is the text of a number**: `formatIPv4` writes all of it
and nothing else. -/
theorem isDottedDecimal_iff {s : String} : IsDottedDecimal s ↔ ∃ n, formatIPv4 n = s := by
  rw [isDottedDecimal_iff_bytes]
  constructor
  · rintro ⟨b, hb, rfl⟩
    exact ⟨bigEndianUint32 b, congrArg dottedDecimal (putUint32_bigEndianUint32 hb)⟩
  · rintro ⟨n, rfl⟩
    exact ⟨putUint32 n, rfl, rfl⟩

example : IsDottedDecimal "192.168.122.1" ∧ ¬ IsDottedDecimal "192.168.122.01"
    ∧ ¬ IsDottedDecimal "192.168.256.1" := by
  decide +kernel

/-! ## What the parser accepts -/

section Parser

variable {prev : Option Char} {val digLen : ℕ} {fields b : IP} {c : Char} {l : List Char}

/-- The parser goes on after a digit that fits the octet, and after a dot
with an octet on either side. -/
theorem parseIPv4Fields_cons_eq_some :
    parseIPv4Fields prev val digLen fields (c :: l) = some b ↔
      (c.isDigit = true ∧ ¬ (digLen = 1 ∧ val = 0) ∧ val * 10 + (c.toNat - 48) ≤ 255
          ∧ parseIPv4Fields (some c) (val * 10 + (c.toNat - 48)) (digLen + 1) fields l = some b)
        ∨ (c = '.' ∧ prev ≠ none ∧ prev ≠ some '.' ∧ l ≠ [] ∧ fields.length ≠ 3
          ∧ parseIPv4Fields (some c) 0 0 (fields ++ [UInt8.ofNat val]) l = some b) := by
  rw [parseIPv4Fields]
  by_cases hdigit : c.isDigit = true
  · have hdot : c ≠ '.' := by
      rintro rfl
      exact absurd hdigit (by decide)
    simp [hdigit, hdot]
  · by_cases hdot : c = '.'
    · rw [if_neg hdigit, if_pos hdot]
      simp only [hdot, Option.ite_none_left_eq_some, not_or, and_assoc]
      tauto
    · simp [hdigit, hdot]

/-- **Where the parser stands**: the octets before and the value of the one
it is in, of which it has read `digLen` digits. Without a digit it stands at
the beginning or after a dot, and after a dot something follows. -/
structure Reading (prev : Option Char) (val digLen : ℕ) (fields : IP) (l : List Char) : Prop where
  val_eq : digLen = 0 → val = 0
  val_le : val ≤ 255
  val_pos : 1 < digLen → 0 < val
  length_le : fields.length ≤ 3
  start : digLen = 0 → (prev = none ∧ fields = []) ∨ (prev = some '.' ∧ l ≠ [])

theorem Reading.begin (l : List Char) : Reading none 0 0 [] l :=
  ⟨fun _ => rfl, by decide, by decide, by decide, fun _ => Or.inl ⟨rfl, rfl⟩⟩

theorem Reading.digit (h : Reading prev val digLen fields (c :: l))
    (hzero : ¬ (digLen = 1 ∧ val = 0)) (hle : val * 10 + (c.toNat - 48) ≤ 255) :
    Reading (some c) (val * 10 + (c.toNat - 48)) (digLen + 1) fields l := by
  have hpos := h.val_pos
  exact ⟨by omega, hle, by omega, h.length_le, by omega⟩

theorem Reading.dot (h : Reading prev val digLen fields (c :: l)) (hl : l ≠ [])
    (hlength : fields.length ≠ 3) :
    Reading (some '.') 0 0 (fields ++ [UInt8.ofNat val]) l := by
  refine ⟨fun _ => rfl, by decide, by decide, ?_, fun _ => Or.inr ⟨rfl, hl⟩⟩
  have hle := h.length_le
  rw [List.length_append, List.length_singleton]
  omega

/-- A dot or the end comes after a digit. -/
theorem Reading.digLen_ne_zero (h : Reading prev val digLen fields l)
    (hprev : l ≠ [] → prev ≠ none ∧ prev ≠ some '.') (hfields : l = [] → fields ≠ []) :
    digLen ≠ 0 := by
  intro h0
  by_cases hl : l = []
  · rcases h.start h0 with hbegin | hdot
    · exact hfields hl hbegin.2
    · exact hdot.2 hl
  · rcases h.start h0 with hbegin | hdot
    · exact (hprev hl).1 hbegin.1
    · exact (hprev hl).2 hdot.1

theorem Reading.toNat_ofNat (h : Reading prev val digLen fields l) :
    (UInt8.ofNat val).toNat = val :=
  UInt8.toNat_ofNat_of_lt' (Nat.lt_succ_of_le h.val_le)

/-- The text of the octet the parser is in, from its value: there is none
before the first digit. -/
def octetRead (val digLen : ℕ) : List Char := if digLen = 0 then [] else Nat.toDigits 10 val

theorem octetRead_of_ne_zero (h : digLen ≠ 0) : octetRead val digLen = Nat.toDigits 10 val :=
  if_neg h

theorem Reading.octetRead_snoc (h : Reading prev val digLen fields (c :: l))
    (hc : c.isDigit = true) (hzero : ¬ (digLen = 1 ∧ val = 0)) :
    octetRead val digLen ++ [c] = octetRead (val * 10 + (c.toNat - 48)) (digLen + 1) := by
  rw [octetRead_of_ne_zero (Nat.succ_ne_zero digLen)]
  by_cases h0 : digLen = 0
  · rw [octetRead, if_pos h0, h.val_eq h0, Nat.zero_mul, Nat.zero_add, List.nil_append,
      Nat.toDigits_of_lt_base (sub_lt_ten_of_isDigit hc), digitChar_of_isDigit hc]
  · have hpos : 0 < val := by
      have := h.val_pos
      omega
    rw [octetRead_of_ne_zero h0, toDigits_snoc hpos hc]

/-- **The parser reads octets.** What it returns are the octets before and
those of the text, the octet it is in included. -/
theorem Reading.parse (hread : Reading prev val digLen fields l)
    (h : parseIPv4Fields prev val digLen fields l = some b) :
    b.length = 4 ∧ ∃ bytes : IP, b = fields ++ bytes ∧ octetRead val digLen ++ l
      = ['.'].intercalate (bytes.map fun x => Nat.toDigits 10 x.toNat) := by
  induction l generalizing prev val digLen fields with
  | nil =>
    rw [parseIPv4Fields, Option.ite_none_left_eq_some] at h
    have h3 : fields.length = 3 := by
      have := hread.length_le
      omega
    have hb := (Option.some.inj h.2).symm
    refine ⟨by rw [hb, List.length_append, h3]; rfl, [UInt8.ofNat val], hb, ?_⟩
    have hne := hread.digLen_ne_zero (fun hl => absurd rfl hl) fun _ => by
      rintro rfl
      cases h3
    rw [octetRead_of_ne_zero hne, List.map_singleton, List.intercalate_singleton,
      List.append_nil, hread.toNat_ofNat]
  | cons c l ih =>
    rcases parseIPv4Fields_cons_eq_some.mp h with
      ⟨hc, hzero, hle, hrec⟩ | ⟨rfl, hnone, hdot, hl, h3, hrec⟩
    · -- a digit: the octet goes on
      obtain ⟨h4, bytes, hb, htext⟩ := ih (hread.digit hzero hle) hrec
      refine ⟨h4, bytes, hb, ?_⟩
      rw [List.append_cons, hread.octetRead_snoc hc hzero, htext]
    · -- a dot: the octet is complete, and another one begins
      obtain ⟨h4, bytes, hb, htext⟩ := ih (hread.dot hl h3) hrec
      have hne := hread.digLen_ne_zero (fun _ => ⟨hnone, hdot⟩) fun hl => by cases hl
      have hbytes : bytes ≠ [] := by
        rintro rfl
        have hle := hread.length_le
        rw [hb, List.append_nil, List.length_append, List.length_singleton] at h4
        omega
      refine ⟨h4, UInt8.ofNat val :: bytes, hb.trans (List.append_cons _ _ _).symm, ?_⟩
      rw [octetRead_of_ne_zero hne, List.map_cons, hread.toNat_ofNat,
        List.intercalate_cons_of_ne_nil (by simpa using hbytes), ← htext]
      exact List.append_cons _ _ _

end Parser

/-- **The parser accepts canonical text only.** A leading zero or an empty
octet is refused, so that no address has a second text in this notation. -/
theorem parseIPv4_eq_some {l : List Char} {b : IP} :
    parseIPv4 l = some b ↔ b.length = 4 ∧ (dottedDecimal b).toList = l := by
  constructor
  · intro h
    obtain ⟨h4, bytes, hb, htext⟩ := (Reading.begin l).parse h
    rw [List.nil_append] at hb
    refine ⟨h4, ?_⟩
    rw [toList_dottedDecimal_eq, hb, ← htext]
    rfl
  · rintro ⟨h4, rfl⟩
    obtain ⟨x, y, z, w, rfl⟩ := List.length_eq_four.mp h4
    exact parseIPv4_dottedDecimal x y z w

/-! ## Text and number -/

theorem mem_of_ipNotation {l : List Char} {c : Char} (h : ipNotation l = some c) : c ∈ l := by
  induction l with
  | nil => cases h
  | cons a l ih =>
    rw [ipNotation] at h
    split at h
    · rw [Option.some.inj h]
      exact List.mem_cons_self
    · exact List.mem_cons_of_mem a (ih h)

/-- Without a colon, what is parsed is the canonical text of four bytes. -/
theorem to4_of_parseIP {s : String} (hs : ':' ∉ s.toList) {ip : IP} (h : parseIP s = some ip) :
    ∃ b : IP, b.length = 4 ∧ dottedDecimal b = s ∧ to4 ip = some b := by
  unfold parseIP at h
  split at h
  · obtain ⟨b, hparse, rfl⟩ := Option.map_eq_some_iff.mp h
    obtain ⟨hb, htext⟩ := parseIPv4_eq_some.mp hparse
    exact ⟨b, hb, String.toList_inj.mp htext, to4_mapped hb⟩
  · rename_i hcolon
    exact absurd (mem_of_ipNotation hcolon) hs
  · cases h

/-- **In dotted notation only canonical text has a number.** The texts with a
colon are those of IPv6, and some of them are read as IPv4 addresses. -/
theorem addressNumber_eq_some {s : String} (hs : ':' ∉ s.toList) {n : UInt32} :
    addressNumber s = some n ↔ s = formatIPv4 n := by
  constructor
  · intro h
    obtain ⟨ip4, hip4, rfl⟩ := Option.map_eq_some_iff.mp h
    obtain ⟨ip, hparse, hto4⟩ := Option.bind_eq_some_iff.mp hip4
    obtain ⟨b, hb, rfl, hb4⟩ := to4_of_parseIP hs hparse
    obtain rfl : b = ip4 := Option.some.inj (hb4.symm.trans hto4)
    rw [formatIPv4, putUint32_bigEndianUint32 hb]
  · rintro rfl
    exact addressNumber_formatIPv4 n

/-- `firstDHCPRange` reads the ends of the ranges with `addressNumber`. -/
theorem firstDHCPRange_eq (dhcp : NetworkDHCP) :
    firstDHCPRange dhcp = dhcp.ranges.findSome? fun rng =>
      (addressNumber rng.start).bind fun s => (addressNumber rng.end_).map fun e => (s, e) := by
  unfold firstDHCPRange addressNumber
  congr 1
  funext rng
  cases (parseIP rng.start).bind to4 with
  | none => rfl
  | some s4 => cases (parseIP rng.end_).bind to4 <;> rfl

/-- The first range, where both ends have a number. -/
theorem firstDHCPRange_cons {s e : String} {m n : UInt32} (hs : addressNumber s = some m)
    (he : addressNumber e = some n) (ranges : List NetworkDHCPRange)
    (hosts : List NetworkDHCPHost) :
    firstDHCPRange ⟨⟨s, e⟩ :: ranges, hosts⟩ = some (m, n) := by
  rw [firstDHCPRange_eq, List.findSome?_cons, hs, he]
  rfl

/-- **Reading and writing are inverse.** What is written is read back as the
number, both ends of a range alike; canonical text is what is written for the
number read from it; and candidates are looked up under one key exactly if
they are one address. -/
theorem addressText_agrees :
    (∀ (m n : UInt32) (ranges : List NetworkDHCPRange) (hosts : List NetworkDHCPHost),
      firstDHCPRange ⟨⟨formatIPv4 m, formatIPv4 n⟩ :: ranges, hosts⟩ = some (m, n))
    ∧ (∀ s e : String, IsDottedDecimal s → IsDottedDecimal e →
        ∀ (ranges : List NetworkDHCPRange) (hosts : List NetworkDHCPHost),
          ∃ m n, firstDHCPRange ⟨⟨s, e⟩ :: ranges, hosts⟩ = some (m, n)
            ∧ s = formatIPv4 m ∧ e = formatIPv4 n)
    ∧ ∀ m n : UInt32, formatIPv4 m = formatIPv4 n ↔ m = n := by
  refine ⟨fun m n => ?_, fun s e hs he ranges hosts => ?_, fun m n => formatIPv4_injective.eq_iff⟩
  · exact firstDHCPRange_cons (addressNumber_formatIPv4 m) (addressNumber_formatIPv4 n)
  · obtain ⟨m, rfl⟩ := isDottedDecimal_iff.mp hs
    obtain ⟨n, rfl⟩ := isDottedDecimal_iff.mp he
    exact ⟨m, n, firstDHCPRange_cons (addressNumber_formatIPv4 m) (addressNumber_formatIPv4 n)
      ranges hosts, rfl, rfl⟩

theorem addressText_agrees_default :
    IsDottedDecimal "192.168.122.2" ∧ IsDottedDecimal "192.168.122.254"
    ∧ ∃ m n, firstDHCPRange ⟨[⟨"192.168.122.2", "192.168.122.254"⟩], []⟩ = some (m, n)
      ∧ "192.168.122.2" = formatIPv4 m ∧ "192.168.122.254" = formatIPv4 n := by
  have hs : IsDottedDecimal "192.168.122.2" := by decide +kernel
  have he : IsDottedDecimal "192.168.122.254" := by decide +kernel
  exact ⟨hs, he, addressText_agrees.2.1 _ _ hs he [] []⟩

/-! ## Host entries in dotted notation -/

/-- **An entry is found by its address**: under the text of a candidate stands
the last entry whose address is read as the candidate. -/
theorem hostIPSet_formatIPv4 {network : Network}
    (hhosts : ∀ e ∈ network.hosts, ':' ∉ e.ip.toList) (n : UInt32) :
    hostIPSet network (formatIPv4 n)
      = (network.hosts.reverse.find? fun e => decide (addressNumber e.ip = some n)).map
        NetworkDHCPHost.mac := by
  rw [hostIPSet_eq_foldl, foldl_recordHost _ (formatIPv4_ne_empty n), lastOwner]
  congr 1
  refine List.find?_congr fun e he => ?_
  rw [beq_eq_decide, decide_eq_decide,
    addressNumber_eq_some (hhosts e (List.mem_reverse.mp he))]

/-- Entries that are apart have distinct addresses, and in dotted notation
each is in its canonical form. -/
theorem DistinctAddresses.of_apart {hosts : List NetworkDHCPHost} (hapart : hosts.Pairwise Apart)
    (hhosts : ∀ e ∈ hosts, ':' ∉ e.ip.toList) : DistinctAddresses hosts :=
  ⟨hapart.imp fun h _ => h.2.2, fun e he _ => (addressNumber_eq_some (hhosts e he)).mp⟩

/-- **No address is given away twice**: among entries that are apart, a
candidate is free exactly if no entry binds its address to another MAC. -/
theorem candidateFree_iff_not_boundElsewhere {network : Network}
    (hapart : network.hosts.Pairwise Apart) (hhosts : ∀ e ∈ network.hosts, ':' ∉ e.ip.toList)
    (mac : String) (c : UInt32) :
    candidateFree (hostIPSet network) mac (formatIPv4 c) = true
      ↔ ¬ BoundElsewhere network.hosts mac c := by
  rw [candidateFree_iff_vacant (formatIPv4_ne_empty c)]
  exact (DistinctAddresses.of_apart hapart hhosts).vacant_iff

end LibvirtProvider

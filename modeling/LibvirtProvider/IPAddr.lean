import LibvirtProvider.GoText

/-!
# Addresses as text, as bytes and as numbers

The part of Go's `net` package that the allocation of addresses goes
through. An address is its bytes: sixteen as `net.ParseIP` returns them, four
once `To4` has found an IPv4 address in them. `parseIP` follows
`netip.ParseAddr`, both notations included, since an address attribute can
hold either and the IPv4 ones can be written in the IPv6 notation.

Addresses of four bytes are also numbers, in network order; the loops over
candidates count in those, and `formatIPv4` turns one back into text.
-/

namespace LibvirtProvider

/-- `net.IP`: the bytes of an address. As in Go nothing in the type says how
many there are; `to4` is what makes sure. -/
abbrev IP := List UInt8

/-- The digits of an octet and the dots between octets, read from the left.
`prev` is the character before, `val` and `digLen` the octet so far, `fields`
the octets already finished. -/
def parseIPv4Fields (prev : Option Char) (val digLen : ℕ) (fields : IP) :
    List Char → Option IP
  | [] => if fields.length < 3 then none else some (fields ++ [UInt8.ofNat val])
  | c :: rest =>
    if c.isDigit then
      -- an octet with a leading zero
      if digLen = 1 ∧ val = 0 then none
      else if 255 < val * 10 + (c.toNat - 48) then none
      else parseIPv4Fields (some c) (val * 10 + (c.toNat - 48)) (digLen + 1) fields rest
    else if c = '.' then
      if prev = none ∨ rest = [] ∨ prev = some '.' then none
      else if fields.length = 3 then none
      else parseIPv4Fields (some c) 0 0 (fields ++ [UInt8.ofNat val]) rest
    else none

/-- `netip.parseIPv4`: the four bytes of a dotted-decimal address. -/
def parseIPv4 (s : List Char) : Option IP := parseIPv4Fields none 0 0 [] s

/-- The value of a hexadecimal digit. -/
def hexVal (c : Char) : Option ℕ :=
  if '0' ≤ c ∧ c ≤ '9' then some (c.toNat - 48)
  else if 'a' ≤ c ∧ c ≤ 'f' then some (c.toNat - 87)
  else if 'A' ≤ c ∧ c ≤ 'F' then some (c.toNat - 55)
  else none

/-- One group of an IPv6 address: how many digits it has, its value, and
what follows. More than four digits are an error. -/
def parseHexGroup (off acc : ℕ) : List Char → Option (ℕ × ℕ × List Char)
  | [] => some (off, acc, [])
  | c :: rest =>
    match hexVal c with
    | none => some (off, acc, c :: rest)
    | some d => if 3 < off then none else parseHexGroup (off + 1) (acc * 16 + d) rest

/-- The loop of `netip.parseIPv6` over the groups: the bytes so far and
where the ellipsis stands among them. At most eight groups fit. -/
def parseIPv6Groups : ℕ → IP → Option ℕ → List Char → Option (IP × Option ℕ × List Char)
  | 0, ip, ellipsis, s => some (ip, ellipsis, s)
  | n + 1, ip, ellipsis, s =>
    match parseHexGroup 0 0 s with
    | none => none
    | some (0, _, _) => none
    | some (_, _, '.' :: _) =>
      -- an IPv4 address in the last four bytes
      if ellipsis = none ∧ ip.length ≠ 12 then none
      else if 16 < ip.length + 4 then none
      else (parseIPv4 s).map fun b => (ip ++ b, ellipsis, [])
    | some (_, acc, rest) =>
      let ip' := ip ++ [UInt8.ofNat (acc / 256), UInt8.ofNat acc]
      match rest with
      | [] => some (ip', ellipsis, [])
      | ':' :: ':' :: rest' =>
        if ellipsis.isSome then none
        else if rest' = [] then some (ip', some ip'.length, [])
        else parseIPv6Groups n ip' (some ip'.length) rest'
      | ':' :: c :: rest' => parseIPv6Groups n ip' ellipsis (c :: rest')
      | _ => none

/-- `netip.parseIPv6` for an address without a zone. -/
def parseIPv6 (s : List Char) : Option IP :=
  let start : Option ℕ × List Char :=
    match s with
    | ':' :: ':' :: rest => (some 0, rest)
    | _ => (none, s)
  if start.1 = some 0 ∧ start.2 = [] then some (List.replicate 16 0)
  else
    match parseIPv6Groups 8 [] start.1 start.2 with
    | none => none
    | some (ip, ellipsis, rest) =>
      if rest ≠ [] then none
      else
        match ellipsis with
        | none => if ip.length < 16 then none else some ip
        | some k =>
          if ip.length < 16 then
            some (ip.take k ++ List.replicate (16 - ip.length) 0 ++ ip.drop k)
          else none

/-- The first dot, colon or percent sign decides the notation. -/
def ipNotation : List Char → Option Char
  | [] => none
  | c :: rest => if c = '.' ∨ c = ':' ∨ c = '%' then some c else ipNotation rest

/-- `net.ParseIP`: sixteen bytes, or nothing. An IPv4 address comes in its
mapped form, from where `to4` takes it, and one written in the IPv6 notation
comes out the same. A zone is not accepted. -/
def parseIP (s : String) : Option IP :=
  match ipNotation s.toList with
  | some '.' => (parseIPv4 s.toList).map fun b => List.replicate 10 0 ++ [0xff, 0xff] ++ b
  | some ':' => if '%' ∈ s.toList then none else parseIPv6 s.toList
  | _ => none

/-- `net.IP.To4`: the four bytes of an IPv4 address. -/
def to4 (ip : IP) : Option IP :=
  if ip.length = 4 then some ip
  else if ip.length = 16 ∧ ip.take 10 = List.replicate 10 0 ∧ (ip.drop 10).take 2 = [0xff, 0xff]
  then some (ip.drop 12)
  else none

/-- `binary.BigEndian.Uint32` of four bytes. -/
def bigEndianUint32 (b : IP) : UInt32 :=
  b.foldl (fun acc x => (acc <<< 8) ||| x.toUInt32) 0

/-- `binary.BigEndian.PutUint32`. -/
def putUint32 (n : UInt32) : IP :=
  [(n >>> 24).toUInt8, (n >>> 16).toUInt8, (n >>> 8).toUInt8, n.toUInt8]

/-- `net.IP.Mask` of four bytes by four bytes. -/
def maskIP (ip mask : IP) : IP := List.zipWith (fun x m => x &&& m) ip mask

/-- `net.IP.String` of four bytes: dotted decimal. -/
def dottedDecimal (b : IP) : String := ".".intercalate (b.map fun x => toString x.toNat)

/-- `formatIPv4`: the text of an address number. -/
def formatIPv4 (ipNum : UInt32) : String := dottedDecimal (putUint32 ipNum)

example : formatIPv4 3232266753 = "192.168.122.1" := by decide +kernel

example : ((parseIP "192.168.122.1").bind to4).map bigEndianUint32 = some 3232266753 := by
  decide +kernel

example : (parseIP "::ffff:c0a8:7a01").bind to4 = some [192, 168, 122, 1] := by
  decide +kernel

/-! ## The text of an address is made of digits and dots -/

theorem toList_octet (x : UInt8) : (toString x.toNat).toList = Nat.toDigits 10 x.toNat :=
  Nat.toList_repr

theorem lt_of_mem_dottedDecimal {b : IP} {c : Char} (h : c ∈ (dottedDecimal b).toList) :
    c.toNat < 65 := by
  have hdot : ∀ c ∈ ".".toList, c.toNat < 65 := by
    intro c hc
    obtain rfl : c = '.' := by simpa using hc
    decide
  refine forall_mem_intercalate hdot ?_ c h
  intro s hs c hc
  obtain ⟨x, -, rfl⟩ := List.mem_map.mp hs
  rw [toList_octet] at hc
  have hd := Nat.isDigit_of_mem_toDigits (by decide) (by decide) hc
  rw [Char.isDigit, Bool.and_eq_true, decide_eq_true_eq, decide_eq_true_eq] at hd
  exact Nat.lt_of_le_of_lt (show c.val.toNat ≤ 57 from hd.2) (by decide)

/-- Comparing a formatted address up to case is comparing it. -/
theorem foldKey_eq_formatIPv4 {s : String} {n : UInt32} :
    foldKey s = foldKey (formatIPv4 n) ↔ s = formatIPv4 n :=
  foldKey_eq_iff_of_not_isLower fun _ hc => foldChar_of_lt (lt_of_mem_dottedDecimal hc)

/-! ## Bytes and numbers -/

theorem length_to4 {ip ip4 : IP} (h : to4 ip = some ip4) : ip4.length = 4 := by
  unfold to4 at h
  split at h
  · cases h
    assumption
  · split at h
    · rename_i h16
      cases h
      rw [List.length_drop, h16.1]
    · cases h

/-- The sixteen bytes that `net.ParseIP` has for four of IPv4 are those four
again. -/
theorem to4_mapped {b : IP} (hb : b.length = 4) :
    to4 (List.replicate 10 0 ++ [0xff, 0xff] ++ b) = some b := by
  obtain ⟨x, y, z, w, rfl⟩ := List.length_eq_four.mp hb
  rfl

/-- One byte more: the number so far moves up, and its highest byte is lost. -/
theorem toNat_shiftLeft_or (acc : UInt32) (x : UInt8) :
    ((acc <<< 8) ||| x.toUInt32).toNat = acc.toNat % 2 ^ 24 * 256 + x.toNat := by
  have hx := x.toNat_lt
  have hshift : acc.toNat * 2 ^ 8 % 2 ^ 32 = (acc.toNat % 2 ^ 24) <<< 8 := by
    rw [Nat.shiftLeft_eq]
    omega
  rw [UInt32.toNat_or, UInt32.toNat_shiftLeft, UInt8.toNat_toUInt32,
    show (8 : UInt32).toNat % 32 = 8 from rfl, Nat.shiftLeft_eq, hshift,
    ← Nat.shiftLeft_add_eq_or_of_lt hx, Nat.shiftLeft_eq]

@[simp] theorem bigEndianUint32_putUint32 (n : UInt32) : bigEndianUint32 (putUint32 n) = n := by
  have hn := n.toNat_lt
  rw [← UInt32.toNat_inj]
  simp only [bigEndianUint32, putUint32, List.foldl_cons, List.foldl_nil, toNat_shiftLeft_or,
    UInt32.toNat_toUInt8, UInt32.toNat_shiftRight, Nat.shiftRight_eq_div_pow, UInt32.toNat_zero]
  simp only [UInt32.reduceToNat, Nat.reduceMod, Nat.reducePow]
  omega

theorem putUint32_bigEndianUint32 {b : IP} (hb : b.length = 4) :
    putUint32 (bigEndianUint32 b) = b := by
  obtain ⟨x, y, z, w, rfl⟩ := List.length_eq_four.mp hb
  have hx := x.toNat_lt
  have hy := y.toNat_lt
  have hz := z.toNat_lt
  have hw := w.toNat_lt
  simp only [bigEndianUint32, putUint32, List.foldl_cons, List.foldl_nil, List.cons.injEq,
    ← UInt8.toNat_inj, UInt32.toNat_toUInt8, UInt32.toNat_shiftRight, toNat_shiftLeft_or,
    Nat.shiftRight_eq_div_pow, UInt32.toNat_zero]
  simp only [UInt32.reduceToNat, Nat.reduceMod, Nat.reducePow, and_true]
  omega

/-- Masking an address is masking its number. -/
theorem bigEndianUint32_maskIP {ip mask : IP} (h : ip.length = mask.length) :
    bigEndianUint32 (maskIP ip mask) = bigEndianUint32 ip &&& bigEndianUint32 mask := by
  -- the byte that comes in and the bytes moved up have no bit in common
  have hstep : ∀ (a b : UInt32) (x y : UInt8),
      ((a &&& b) <<< 8) ||| (x &&& y).toUInt32
        = ((a <<< 8) ||| x.toUInt32) &&& ((b <<< 8) ||| y.toUInt32) := by
    intro a b x y
    rw [← UInt32.toBitVec_inj]
    ext i hi
    by_cases h8 : i < 8
    · simp [h8]
    · have hx : x.toBitVec.getLsbD i = false := BitVec.getLsbD_of_ge _ _ (by omega)
      have hy : y.toBitVec.getLsbD i = false := BitVec.getLsbD_of_ge _ _ (by omega)
      simp [h8, hx, hy]
  let f : UInt32 → UInt8 → UInt32 := fun acc x => (acc <<< 8) ||| x.toUInt32
  suffices hfold : ∀ a b, (maskIP ip mask).foldl f (a &&& b) = ip.foldl f a &&& mask.foldl f b by
    exact hfold 0 0
  unfold maskIP
  induction ip generalizing mask with
  | nil =>
    intro a b
    rw [List.length_nil, eq_comm, List.length_eq_zero_iff] at h
    rw [h]
    rfl
  | cons x ip ih =>
    intro a b
    cases mask with
    | nil => cases h
    | cons y mask =>
      rw [List.zipWith_cons_cons, List.foldl_cons, List.foldl_cons, List.foldl_cons]
      rw [show f (a &&& b) (x &&& y) = f a x &&& f b y from hstep a b x y]
      exact ih (Nat.succ.inj h) _ _

/-! ## Reading a formatted address back -/

/-- The number of an address given as text, the way `firstDHCPRange` reads the
ends of a range. It is the inverse of `formatIPv4` on the texts that one
writes. -/
def addressNumber (s : String) : Option UInt32 := ((parseIP s).bind to4).map bigEndianUint32

theorem digitChar_spec : ∀ d < 10, (Nat.digitChar d).isDigit = true
    ∧ (Nat.digitChar d).toNat - 48 = d ∧ Nat.digitChar d ≠ '.' := by decide

section Parse

variable {prev : Option Char} {fields : IP} {rest : List Char}

/-- A digit is read. -/
theorem parseIPv4Fields_digit {val digLen d : ℕ} (hd : d < 10) (hzero : ¬ (digLen = 1 ∧ val = 0))
    (hle : val * 10 + d ≤ 255) :
    parseIPv4Fields prev val digLen fields (d.digitChar :: rest)
      = parseIPv4Fields (some d.digitChar) (val * 10 + d) (digLen + 1) fields rest := by
  have hdigit := digitChar_spec d hd
  rw [parseIPv4Fields, if_pos hdigit.1, if_neg hzero, hdigit.2.1, if_neg (by omega)]

/-- An octet is read, up to the dot or the end that follows. -/
theorem parseIPv4Fields_octet (x : UInt8) :
    ∃ d digLen, d < 10 ∧ parseIPv4Fields prev 0 0 fields ((toString x.toNat).toList ++ rest)
      = parseIPv4Fields (some (Nat.digitChar d)) x.toNat digLen fields rest := by
  have hx := x.toNat_lt
  rw [toList_octet]
  generalize x.toNat = n at hx ⊢
  by_cases h10 : n < 10
  · refine ⟨n, 1, h10, ?_⟩
    rw [Nat.toDigits_of_lt_base h10, List.singleton_append,
      parseIPv4Fields_digit h10 (by omega) (by omega), Nat.zero_mul, Nat.zero_add]
  by_cases h100 : n < 100
  · refine ⟨n % 10, 2, by omega, ?_⟩
    rw [Nat.toDigits_of_base_le (by decide) (by omega),
      Nat.toDigits_of_lt_base (show n / 10 < 10 by omega), List.append_assoc,
      List.singleton_append, List.singleton_append,
      parseIPv4Fields_digit (by omega) (by omega) (by omega),
      parseIPv4Fields_digit (by omega) (by omega) (by omega)]
    congr 1
    omega
  · refine ⟨n % 10, 3, by omega, ?_⟩
    rw [Nat.toDigits_of_base_le (by decide) (by omega),
      Nat.toDigits_of_base_le (by decide) (show 10 ≤ n / 10 by omega),
      Nat.toDigits_of_lt_base (show n / 10 / 10 < 10 by omega), List.append_assoc,
      List.append_assoc, List.singleton_append, List.singleton_append, List.singleton_append,
      parseIPv4Fields_digit (by omega) (by omega) (by omega),
      parseIPv4Fields_digit (by omega) (by omega) (by omega),
      parseIPv4Fields_digit (by omega) (by omega) (by omega)]
    congr 1
    omega

/-- A dot after a digit ends the octet. -/
theorem parseIPv4Fields_dot {val digLen d : ℕ} (hd : d < 10) (hrest : rest ≠ [])
    (hlen : fields.length < 3) :
    parseIPv4Fields (some d.digitChar) val digLen fields ('.' :: rest)
      = parseIPv4Fields (some '.') 0 0 (fields ++ [UInt8.ofNat val]) rest := by
  rw [parseIPv4Fields, if_neg (by decide), if_pos rfl,
    if_neg (by simp [(digitChar_spec d hd).2.2, hrest]),
    if_neg (by omega)]

end Parse

/-- The first dot of a dotted-decimal address decides its notation. -/
theorem ipNotation_digits {l : List Char} (hl : ∀ c ∈ l, c.isDigit = true) (rest : List Char) :
    ipNotation (l ++ '.' :: rest) = some '.' := by
  induction l with
  | nil => rfl
  | cons c l ih =>
    have hc : ∀ x : Char, x.isDigit = false → c ≠ x := by
      rintro x hx rfl
      rw [hl c (by simp)] at hx
      cases hx
    rw [List.cons_append, ipNotation, if_neg, ih fun c h => hl c (List.mem_cons_of_mem _ h)]
    simp [hc '.' (by decide), hc ':' (by decide), hc '%' (by decide)]

theorem toList_dottedDecimal (a b c d : UInt8) :
    (dottedDecimal [a, b, c, d]).toList
      = (toString a.toNat).toList ++ '.' :: ((toString b.toNat).toList ++ '.' ::
        ((toString c.toNat).toList ++ '.' :: ((toString d.toNat).toList ++ []))) := by
  simp [dottedDecimal, String.intercalate_cons_cons]

theorem parseIPv4_dottedDecimal (a b c d : UInt8) :
    parseIPv4 (dottedDecimal [a, b, c, d]).toList = some [a, b, c, d] := by
  rw [parseIPv4, toList_dottedDecimal]
  obtain ⟨d₁, l₁, h₁, e₁⟩ := parseIPv4Fields_octet a
  rw [e₁, parseIPv4Fields_dot h₁ (by simp) (by simp)]
  obtain ⟨d₂, l₂, h₂, e₂⟩ := parseIPv4Fields_octet b
  rw [e₂, parseIPv4Fields_dot h₂ (by simp) (by simp)]
  obtain ⟨d₃, l₃, h₃, e₃⟩ := parseIPv4Fields_octet c
  rw [e₃, parseIPv4Fields_dot h₃ (by simp) (by simp)]
  obtain ⟨d₄, l₄, -, e₄⟩ := parseIPv4Fields_octet d
  rw [e₄]
  simp [parseIPv4Fields]

/-- **A formatted address is read back as its number.** So the entry the
provider writes for a candidate is one that it recognises when it reads the
network again. -/
theorem addressNumber_formatIPv4 (n : UInt32) : addressNumber (formatIPv4 n) = some n := by
  have hnotation : ipNotation (formatIPv4 n).toList = some '.' := by
    rw [formatIPv4, putUint32, toList_dottedDecimal]
    refine ipNotation_digits (fun c hc => ?_) _
    rw [toList_octet] at hc
    exact Nat.isDigit_of_mem_toDigits (by decide) (by decide) hc
  have hparse : parseIP (formatIPv4 n)
      = some (List.replicate 10 0 ++ [0xff, 0xff] ++ putUint32 n) := by
    rw [parseIP, hnotation]
    rw [formatIPv4, putUint32, parseIPv4_dottedDecimal]
    rfl
  rw [addressNumber, hparse, Option.bind_some, to4_mapped rfl, Option.map_some,
    bigEndianUint32_putUint32]

theorem formatIPv4_injective : Function.Injective formatIPv4 := by
  intro m n h
  have hm := addressNumber_formatIPv4 m
  rw [h, addressNumber_formatIPv4] at hm
  exact (Option.some.inj hm).symm

end LibvirtProvider

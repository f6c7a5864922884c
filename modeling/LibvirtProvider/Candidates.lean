import LibvirtProvider.HostEntries

/-!
# Candidate addresses: the loops and their arithmetic

The candidates of a network are counted out by a loop over 32-bit numbers
with an inclusive bound: from one end of the DHCP range to the other, or over
the highest usable addresses of the subnet when there is no range.

For a subnet the bounds come from a chain of fixed-width assignments
(`tailArithmetic`). With a mask of prefix length 1 to 30 none of them wraps
and the block is the highest usable addresses, two hundred or all there are
(`subnetBlock_top`).

The loops have edges. The counter cannot pass the largest number, so a range
that ends there is counted for ever; and the number of addresses of a subnet
is computed in 32 bits, so that for the empty mask it is zero. Away from
these two edges the loops end (`loopsEnd_iff`).
-/

namespace LibvirtProvider

/-! ## The counting loop -/

section Count

variable {first last : UInt32}

/-- **A loop whose bound is not the largest number ends**, having appended
the numbers up to the bound. The measure is the distance to the bound. -/
theorem appendUpTo_eq (hlast : last.toNat + 1 < 2 ^ 32) (fuel : ℕ) (i : UInt32)
    (block : List UInt32) (hfuel : last.toNat + 1 - i.toNat < fuel) :
    ∃ l, appendUpTo fuel i last block = some (block ++ l)
      ∧ l.map UInt32.toNat = List.range' i.toNat (last.toNat + 1 - i.toNat) := by
  induction fuel generalizing i block with
  | zero => omega
  | succ fuel ih =>
    rw [appendUpTo]
    by_cases h : i ≤ last
    · have hle : i.toNat ≤ last.toNat := h
      have hnext : (i + 1).toNat = i.toNat + 1 := by
        rw [UInt32.toNat_add, show (1 : UInt32).toNat = 1 from rfl]
        omega
      obtain ⟨l, hl, hmap⟩ := ih (i + 1) (block ++ [i]) (by omega)
      refine ⟨i :: l, ?_, ?_⟩
      · rw [if_pos h, hl, List.append_assoc, List.singleton_append]
      · rw [List.map_cons, hmap, hnext,
          show last.toNat + 1 - i.toNat = last.toNat + 1 - (i.toNat + 1) + 1 by omega,
          List.range'_succ]
    · have hlt : last.toNat < i.toNat := by rwa [UInt32.not_le, UInt32.lt_iff_toNat_lt] at h
      refine ⟨[], by rw [if_neg h, List.append_nil], ?_⟩
      rw [show last.toNat + 1 - i.toNat = 0 by omega]
      rfl

/-- A loop up to the largest number does not end: no counter is above it. So
it is out of fuel however much it is given. -/
theorem appendUpTo_max (fuel : ℕ) (i : UInt32) (block : List UInt32)
    (hlast : last.toNat + 1 = 2 ^ 32) : appendUpTo fuel i last block = none := by
  induction fuel generalizing i block with
  | zero => rfl
  | succ fuel ih =>
    have h : i ≤ last := by
      rw [UInt32.le_iff_toNat_le]
      have := i.toNat_lt
      omega
    rw [appendUpTo, if_pos h, ih]

theorem countUpTo_eq (first : UInt32) (hlast : last.toNat + 1 < 2 ^ 32) :
    ∃ l, countUpTo first last = some l
      ∧ l.map UInt32.toNat = List.range' first.toNat (last.toNat + 1 - first.toNat) :=
  appendUpTo_eq hlast (2 ^ 32 + 1) first [] (by omega)

theorem countUpTo_eq_none (hlast : last.toNat + 1 = 2 ^ 32) : countUpTo first last = none :=
  appendUpTo_max _ first [] hlast

end Count

/-! ## The block of a subnet -/

/-- Under a mask without holes a number loses its remainder. -/
theorem toNat_and_mask {a m : UInt32} {h : ℕ} (hh : h ≤ 32) (hm : m.toNat = 2 ^ 32 - 2 ^ h) :
    (a &&& m).toNat = a.toNat / 2 ^ h * 2 ^ h := by
  have hm' : m.toNat = (2 ^ (32 - h) - 1) * 2 ^ h := by
    rw [hm, Nat.sub_mul, ← pow_add, Nat.sub_add_cancel hh, Nat.one_mul]
  have ha := a.toNat_lt
  rw [UInt32.toNat_and, hm']
  refine Nat.eq_of_testBit_eq fun i => ?_
  rw [Nat.testBit_and, Nat.testBit_mul_two_pow, Nat.testBit_mul_two_pow,
    Nat.testBit_two_pow_sub_one, Nat.testBit_div_two_pow]
  by_cases hi : h ≤ i
  · rw [Nat.sub_add_cancel hi]
    by_cases h32 : i < 32
    · simp [hi, show i - h < 32 - h by omega]
    · rw [Nat.testBit_lt_two_pow (lt_of_lt_of_le ha (Nat.pow_le_pow_right (by decide) (by omega)))]
      simp
  · simp [hi]

/-- **The numbers `subnetTailCandidates` computes**, each with the type it has
there. They are brought out of the function so that a statement can say of
each step that it does not wrap. -/
structure TailArithmetic where
  hostMask : UInt32
  hostCount : UInt64
  usableCount : UInt64
  n : Int64
  networkNum : UInt32
  lastHost : UInt32
  first : UInt32

/-- The assignments of `subnetTailCandidates`, in order. -/
def tailArithmetic (ipNet : IPNet) (size : ℕ) : TailArithmetic :=
  let hostMask := ~~~ (bigEndianUint32 ipNet.mask)
  let hostCount := (hostMask + 1).toUInt64
  let usableCount := hostCount - 2
  let n := if Int64.ofNat size ≤ usableCount.toInt64 then Int64.ofNat size
    else usableCount.toInt64
  let networkNum := bigEndianUint32 ipNet.ip
  let lastHost := networkNum + usableCount.toUInt32
  let first := lastHost - (n - 1).toUInt64.toUInt32
  ⟨hostMask, hostCount, usableCount, n, networkNum, lastHost, first⟩

theorem subnetTailCandidates_eq {ipNet : IPNet} (h4 : ipNet.ip.length = 4) (size : ℕ) :
    subnetTailCandidates ipNet size =
      if (tailArithmetic ipNet size).hostCount ≤ 2 then
        (throw (.text ("subnet " ++ ipNet.text ++ " has no usable host addresses")) :
          GoComp (List UInt32))
      else
        (countUpTo (tailArithmetic ipNet size).first (tailArithmetic ipNet size).lastHost :
          Option (List UInt32)) := by
  unfold subnetTailCandidates
  rw [to4, if_pos h4]
  rfl

/-- **No operation on the way to the block wraps**, and no conversion cuts
anything off; the last one is the loop's counter, which goes one past the
last address. -/
structure TailArithmetic.NoWrap (t : TailArithmetic) : Prop where
  hostMask_add : t.hostMask.toNat + 1 < 2 ^ 32
  hostCount_sub : 2 ≤ t.hostCount.toNat
  usableCount_int64 : t.usableCount.toNat < 2 ^ 63
  usableCount_uint32 : t.usableCount.toNat < 2 ^ 32
  n_sub : 1 ≤ t.n.toInt
  n_uint32 : t.n.toInt - 1 < 2 ^ 32
  networkNum_add : t.networkNum.toNat + t.usableCount.toNat < 2 ^ 32
  lastHost_sub : t.n.toInt - 1 ≤ t.lastHost.toNat
  counter : t.lastHost.toNat + 1 < 2 ^ 32

/-- **A netmask without holes**: as a number, `p` ones and then zeros. -/
def ContiguousMask (mask : IP) (p : ℕ) : Prop :=
  p ≤ 32 ∧ (bigEndianUint32 mask).toNat = 2 ^ 32 - 2 ^ (32 - p)

instance (mask : IP) (p : ℕ) : Decidable (ContiguousMask mask p) :=
  inferInstanceAs (Decidable (_ ∧ _))

section Subnet

variable {mask : IP} {p : ℕ} (h : ContiguousMask mask p) (ip : IP) (size : ℕ)

/-- What `parseSubnet` makes of an address and a netmask. -/
def subnetOf (ip mask : IP) : IPNet := ⟨maskIP ip mask, mask⟩

include h

theorem ContiguousMask.hostMask :
    (tailArithmetic (subnetOf ip mask) size).hostMask.toNat + 1 = 2 ^ (32 - p) := by
  have hle : 2 ^ (32 - p) ≤ 2 ^ 32 := Nat.pow_le_pow_right (by decide) (by omega)
  have hpos : 0 < 2 ^ (32 - p) := Nat.two_pow_pos _
  change (~~~ (bigEndianUint32 mask)).toNat + 1 = _
  rw [UInt32.toNat_not, h.2, show UInt32.size = 2 ^ 32 from rfl]
  omega

/-- The number of addresses is computed in 32 bits, so that with the empty
mask it wraps to zero. -/
theorem ContiguousMask.hostCount :
    (tailArithmetic (subnetOf ip mask) size).hostCount.toNat
      = if p = 0 then 0 else 2 ^ (32 - p) := by
  change ((tailArithmetic (subnetOf ip mask) size).hostMask + 1).toUInt64.toNat = _
  rw [UInt32.toNat_toUInt64, UInt32.toNat_add, show (1 : UInt32).toNat = 1 from rfl,
    h.hostMask ip size]
  split
  · rename_i hp
    rw [hp]
    rfl
  · exact Nat.mod_eq_of_lt (Nat.pow_lt_pow_right (by decide) (by omega))

variable (hp : 1 ≤ p) (hp' : p ≤ 30)
include hp hp'

theorem ContiguousMask.usableCount :
    (tailArithmetic (subnetOf ip mask) size).usableCount.toNat = 2 ^ (32 - p) - 2 := by
  have hcount := h.hostCount ip size
  rw [if_neg (by omega)] at hcount
  have hle : 2 ^ 2 ≤ 2 ^ (32 - p) := Nat.pow_le_pow_right (by decide) (by omega)
  change ((tailArithmetic (subnetOf ip mask) size).hostCount - 2).toNat = _
  have htwo : 2 ≤ (tailArithmetic (subnetOf ip mask) size).hostCount := by
    rw [UInt64.le_iff_toNat_le, hcount]
    exact (by decide : 2 ≤ 2 ^ 2).trans hle
  rw [UInt64.toNat_sub_of_le _ _ htwo, hcount]
  rfl

variable (hsize : 1 ≤ size) (hsize' : size < 2 ^ 63)
include hsize'

theorem ContiguousMask.blockSize :
    (tailArithmetic (subnetOf ip mask) size).n.toInt = (min size (2 ^ (32 - p) - 2) : ℕ) := by
  have husable := h.usableCount ip size hp hp'
  have hlt : 2 ^ (32 - p) < 2 ^ 32 := Nat.pow_lt_pow_right (by decide) (by omega)
  have hcast : (tailArithmetic (subnetOf ip mask) size).usableCount.toInt64
      = Int64.ofNat (2 ^ (32 - p) - 2) := by
    rw [← husable, ← UInt64.toInt64_ofNat', UInt64.ofNat_toNat]
  change (if Int64.ofNat size ≤ (tailArithmetic (subnetOf ip mask) size).usableCount.toInt64
    then Int64.ofNat size
    else (tailArithmetic (subnetOf ip mask) size).usableCount.toInt64).toInt = _
  rw [hcast]
  have hle : Int64.ofNat size ≤ Int64.ofNat (2 ^ (32 - p) - 2) ↔ size ≤ 2 ^ (32 - p) - 2 := by
    rw [Int64.le_iff_toInt_le, Int64.toInt_ofNat_of_lt hsize', Int64.toInt_ofNat_of_lt (by omega)]
    exact Int.ofNat_le
  by_cases hs : size ≤ 2 ^ (32 - p) - 2
  · rw [if_pos (hle.mpr hs), Nat.min_eq_left hs, Int64.toInt_ofNat_of_lt hsize']
  · rw [if_neg (mt hle.mp hs), Nat.min_eq_right (by omega), Int64.toInt_ofNat_of_lt (by omega)]

variable (hip : ip.length = 4) (hmask : mask.length = 4)
include hsize hip hmask

/-- **The chain of assignments, in numbers.** With `N` addresses in the
subnet, the block ends at the last address but one and has as many addresses
as are asked for, or all but two; nothing wraps on the way. -/
theorem ContiguousMask.tail :
    (tailArithmetic (subnetOf ip mask) size).NoWrap
    ∧ (tailArithmetic (subnetOf ip mask) size).lastHost.toNat
      = (bigEndianUint32 ip).toNat / 2 ^ (32 - p) * 2 ^ (32 - p) + (2 ^ (32 - p) - 2)
    ∧ (tailArithmetic (subnetOf ip mask) size).first.toNat + min size (2 ^ (32 - p) - 2)
      = (tailArithmetic (subnetOf ip mask) size).lastHost.toNat + 1 := by
  have husable := h.usableCount ip size hp hp'
  have hblock := h.blockSize ip size hp hp' hsize'
  have hhost := h.hostMask ip size
  have hcount := h.hostCount ip size
  rw [if_neg (by omega)] at hcount
  have hnet : (tailArithmetic (subnetOf ip mask) size).networkNum.toNat
      = (bigEndianUint32 ip).toNat / 2 ^ (32 - p) * 2 ^ (32 - p) := by
    change (bigEndianUint32 (maskIP ip mask)).toNat = _
    rw [bigEndianUint32_maskIP (hip.trans hmask.symm)]
    exact toNat_and_mask (by omega) h.2
  -- the subnet ends within the 32-bit space
  have hend : (bigEndianUint32 ip).toNat / 2 ^ (32 - p) * 2 ^ (32 - p) + 2 ^ (32 - p) ≤ 2 ^ 32 := by
    have hlt : (bigEndianUint32 ip).toNat / 2 ^ (32 - p) < 2 ^ p := by
      refine Nat.div_lt_of_lt_mul ?_
      rw [← pow_add, show 32 - p + p = 32 by omega]
      exact UInt32.toNat_lt _
    calc _ = ((bigEndianUint32 ip).toNat / 2 ^ (32 - p) + 1) * 2 ^ (32 - p) := by
          rw [Nat.add_mul, Nat.one_mul]
      _ ≤ 2 ^ p * 2 ^ (32 - p) := Nat.mul_le_mul_right _ hlt
      _ = 2 ^ 32 := by rw [← pow_add, show p + (32 - p) = 32 by omega]
  have hlow : 2 ^ 2 ≤ 2 ^ (32 - p) := Nat.pow_le_pow_right (by decide) (by omega)
  have hhigh : 2 ^ (32 - p) < 2 ^ 32 := Nat.pow_lt_pow_right (by decide) (by omega)
  generalize 2 ^ (32 - p) = N at *
  generalize (bigEndianUint32 ip).toNat / N * N = base at *
  obtain ⟨hk, hk', hks⟩ : 1 ≤ min size (N - 2) ∧ min size (N - 2) ≤ N - 2
      ∧ min size (N - 2) ≤ size := by omega
  generalize min size (N - 2) = k at *
  have hlast : (tailArithmetic (subnetOf ip mask) size).lastHost.toNat = base + (N - 2) := by
    change ((tailArithmetic (subnetOf ip mask) size).networkNum
      + (tailArithmetic (subnetOf ip mask) size).usableCount.toUInt32).toNat = _
    rw [UInt32.toNat_add, UInt64.toNat_toUInt32, hnet, husable]
    omega
  have hn : ((tailArithmetic (subnetOf ip mask) size).n - 1).toInt
      = k - 1 := by
    rw [Int64.toInt_sub, hblock, show (1 : Int64).toInt = 1 from rfl]
    exact Int.bmod_eq_of_le (by omega) (by omega)
  have hsub : ((tailArithmetic (subnetOf ip mask) size).n - 1).toUInt64.toUInt32.toNat
      = k - 1 := by
    rw [UInt64.toNat_toUInt32, Int64.toNat_toUInt64_of_le (Int64.le_iff_toInt_le.mpr ?_),
      Int64.toNatClampNeg, hn]
    · omega
    · rw [hn, show (0 : Int64).toInt = 0 from rfl]
      omega
  have hfirst : (tailArithmetic (subnetOf ip mask) size).first.toNat
      = base + (N - 2) - (k - 1) := by
    change ((tailArithmetic (subnetOf ip mask) size).lastHost
      - ((tailArithmetic (subnetOf ip mask) size).n - 1).toUInt64.toUInt32).toNat = _
    rw [UInt32.toNat_sub_of_le, hlast, hsub]
    rw [UInt32.le_iff_toNat_le, hlast, hsub]
    omega
  refine ⟨⟨?_, ?_, ?_, ?_, ?_, ?_, ?_, ?_, ?_⟩, hlast, ?_⟩ <;> omega

end Subnet

/-! ## The highest usable addresses -/

/-- **A usable host address** of the subnet an address lies in: neither the
network's own nor the broadcast address. -/
def UsableHost (p : ℕ) (a x : UInt32) : Prop :=
  x.toNat / 2 ^ (32 - p) = a.toNat / 2 ^ (32 - p)
    ∧ x.toNat % 2 ^ (32 - p) ≠ 0 ∧ x.toNat % 2 ^ (32 - p) ≠ 2 ^ (32 - p) - 1

theorem usableHost_iff {p : ℕ} {a x : UInt32} :
    UsableHost p a x ↔ a.toNat / 2 ^ (32 - p) * 2 ^ (32 - p) < x.toNat
      ∧ x.toNat + 1 < a.toNat / 2 ^ (32 - p) * 2 ^ (32 - p) + 2 ^ (32 - p) := by
  unfold UsableHost
  have hpos : 0 < 2 ^ (32 - p) := Nat.two_pow_pos _
  generalize 2 ^ (32 - p) = N at *
  generalize a.toNat / N = q
  have hsplit := Nat.div_add_mod' x.toNat N
  have hmod := Nat.mod_lt x.toNat hpos
  constructor
  · rintro ⟨rfl, h0, h1⟩
    omega
  · rintro ⟨hlo, hhi⟩
    have hdiv : x.toNat / N = q :=
      Nat.div_eq_of_lt_le hlo.le (by rw [Nat.succ_mul]; omega)
    rw [hdiv] at hsplit
    exact ⟨hdiv, by omega, by omega⟩

/-- **The `n` highest numbers with a property**, in ascending order. The list
is determined by this, so nothing is left to the way it is computed. -/
structure IsTop (P : UInt32 → Prop) (n : ℕ) (block : List UInt32) : Prop where
  ascending : block.Pairwise (· < ·)
  length_eq : block.length = n
  sound : ∀ x ∈ block, P x
  highest : ∀ y, P y → y ∉ block → ∀ x ∈ block, y < x

theorem pairwise_lt_of_map_toNat {block : List UInt32} {a n : ℕ}
    (h : block.map UInt32.toNat = List.range' a n) : block.Pairwise (· < ·) := by
  have hsorted : (List.range' a n).Pairwise (· < ·) := List.pairwise_lt_range' 1
  rw [← h, List.pairwise_map] at hsorted
  exact hsorted

theorem mem_iff_of_map_toNat {block : List UInt32} {a n : ℕ}
    (h : block.map UInt32.toNat = List.range' a n) (x : UInt32) :
    x ∈ block ↔ a ≤ x.toNat ∧ x.toNat < a + n := by
  rw [← List.mem_range'_1, ← h, List.mem_map]
  constructor
  · exact fun hx => ⟨x, hx, rfl⟩
  · rintro ⟨y, hy, hxy⟩
    rwa [← UInt32.toNat_inj.mp hxy]

/-- The block that ends at the last usable address. -/
theorem isTop_usableHost {p n first : ℕ} {a : UInt32} {block : List UInt32}
    (hn : 1 ≤ n) (hn' : n + 2 ≤ 2 ^ (32 - p))
    (hfirst : first + n = a.toNat / 2 ^ (32 - p) * 2 ^ (32 - p) + (2 ^ (32 - p) - 2) + 1)
    (h : block.map UInt32.toNat = List.range' first n) : IsTop (UsableHost p a) n block := by
  refine ⟨pairwise_lt_of_map_toNat h, ?_, fun x hx => ?_, fun y hy hny x hx => ?_⟩
  · rw [← List.length_map, h, List.length_range']
  · rw [mem_iff_of_map_toNat h] at hx
    rw [usableHost_iff]
    omega
  · rw [mem_iff_of_map_toNat h] at hx hny
    rw [usableHost_iff] at hy
    rw [UInt32.lt_iff_toNat_lt]
    omega

/-- The candidates of a network without a DHCP range. -/
def subnetBlock (address netmask : String) : GoComp (List UInt32) := do
  let ipNet ← parseSubnet address netmask
  subnetTailCandidates ipNet machineReservationBlockSize

section Block

variable {address netmask : String} {ip mask : IP} {p : ℕ}

theorem parseSubnet_eq (hip : (parseIP address).bind to4 = some ip)
    (hmask : (parseIP netmask).bind to4 = some mask) :
    parseSubnet address netmask = pure (subnetOf ip mask) := by
  obtain ⟨ip', hip', hip⟩ := Option.bind_eq_some_iff.mp hip
  obtain ⟨mask', hmask', hmask⟩ := Option.bind_eq_some_iff.mp hmask
  unfold parseSubnet
  rw [hip', hmask']
  dsimp only
  rw [hip, hmask]
  rfl

theorem subnetBlock_eq (hip : (parseIP address).bind to4 = some ip)
    (hmask : (parseIP netmask).bind to4 = some mask) :
    subnetBlock address netmask
      = subnetTailCandidates (subnetOf ip mask) machineReservationBlockSize := by
  rw [subnetBlock, parseSubnet_eq hip hmask, pure_bind]

theorem length_subnetOf (hip : ip.length = 4) (hmask : mask.length = 4) :
    (subnetOf ip mask).ip.length = 4 := by
  simp [subnetOf, maskIP, hip, hmask]

/-- A subnet with at most two addresses has no block. -/
theorem subnetTailCandidates_small (hip : ip.length = 4) (hmask : mask.length = 4)
    (hcont : ContiguousMask mask p) (hp : p = 0 ∨ 31 ≤ p) (size : ℕ) :
    ∃ err, (subnetTailCandidates (subnetOf ip mask) size).run = some (.error err) := by
  rw [subnetTailCandidates_eq (length_subnetOf hip hmask), if_pos]
  · exact ⟨_, rfl⟩
  · rw [UInt64.le_iff_toNat_le, hcont.hostCount, show (2 : UInt64).toNat = 2 from rfl]
    split
    · decide
    · calc 2 ^ (32 - p) ≤ 2 ^ 1 := Nat.pow_le_pow_right (by decide) (by omega)
        _ = 2 := rfl

/-- A larger one has the block that ends at its last usable address. -/
theorem subnetTailCandidates_block (hip : ip.length = 4) (hmask : mask.length = 4)
    (hcont : ContiguousMask mask p) (hp : 1 ≤ p) (hp' : p ≤ 30) :
    ∃ block, (subnetTailCandidates (subnetOf ip mask) machineReservationBlockSize).run
        = some (.ok block)
      ∧ IsTop (UsableHost p (bigEndianUint32 ip))
          (min machineReservationBlockSize (2 ^ (32 - p) - 2)) block
      ∧ (tailArithmetic (subnetOf ip mask) machineReservationBlockSize).NoWrap := by
  obtain ⟨hwrap, hlast, hfirst⟩ := hcont.tail ip machineReservationBlockSize hp hp'
    (by decide) (by decide) hip hmask
  have hlow : 2 ^ 2 ≤ 2 ^ (32 - p) := Nat.pow_le_pow_right (by decide) (by omega)
  have hsize : 1 ≤ min machineReservationBlockSize (2 ^ (32 - p) - 2) :=
    Nat.le_min.mpr ⟨by decide, by omega⟩
  have hsize' := Nat.min_le_right machineReservationBlockSize (2 ^ (32 - p) - 2)
  obtain ⟨block, hcount, hmap⟩ := countUpTo_eq
    (tailArithmetic (subnetOf ip mask) machineReservationBlockSize).first hwrap.counter
  refine ⟨block, ?_, ?_, hwrap⟩
  · rw [subnetTailCandidates_eq (length_subnetOf hip hmask), if_neg, hcount]
    · rfl
    · rw [UInt64.le_iff_toNat_le, hcont.hostCount, if_neg (by omega),
        show (2 : UInt64).toNat = 2 from rfl]
      omega
  · rw [← hfirst, Nat.add_sub_cancel_left] at hmap
    exact isTop_usableHost hsize (by omega) (hfirst.trans (by rw [hlast])) hmap

/-- **The subnet block is exactly the highest usable hosts.** For every IPv4
address and every mask of prefix length 1 to 32 the block fails for the two
longest prefixes and is returned for the others: in ascending order, the two
hundred highest usable addresses of the subnet, or all of them. No operation
on the way wraps. -/
theorem subnetBlock_top (hip : (parseIP address).bind to4 = some ip)
    (hmask : (parseIP netmask).bind to4 = some mask) (hcont : ContiguousMask mask p)
    (hp : 1 ≤ p) :
    ((∃ err, (subnetBlock address netmask).run = some (.error err)) ↔ p = 31 ∨ p = 32)
    ∧ (tailArithmetic (subnetOf ip mask) machineReservationBlockSize).hostMask.toNat + 1 < 2 ^ 32
    ∧ (p ≠ 31 → p ≠ 32 → ∃ block, (subnetBlock address netmask).run = some (.ok block)
      ∧ IsTop (UsableHost p (bigEndianUint32 ip)) (min 200 (2 ^ (32 - p) - 2)) block
      ∧ (tailArithmetic (subnetOf ip mask) machineReservationBlockSize).NoWrap) := by
  obtain ⟨_, -, hip4⟩ := Option.bind_eq_some_iff.mp hip
  obtain ⟨_, -, hmask4⟩ := Option.bind_eq_some_iff.mp hmask
  have hip4 := length_to4 hip4
  have hmask4 := length_to4 hmask4
  have hle := hcont.1
  rw [subnetBlock_eq hip hmask, hcont.hostMask]
  have hblock := subnetTailCandidates_block hip4 hmask4 hcont hp
  refine ⟨⟨fun ⟨err, herr⟩ => ?_, fun hp31 => ?_⟩,
    Nat.pow_lt_pow_right (by decide) (by omega), fun h31 h32 => hblock (by omega)⟩
  · by_contra hnot
    obtain ⟨block, hok, -⟩ := hblock (by omega)
    rw [hok] at herr
    cases herr
  · exact subnetTailCandidates_small hip4 hmask4 hcont (by omega) _

end Block

theorem subnetBlock_top_24 :
    ∃ block, (subnetBlock "192.168.122.1" "255.255.255.0").run = some (.ok block)
      ∧ block.length = 200 := by
  have hip : (parseIP "192.168.122.1").bind to4 = some [192, 168, 122, 1] := by decide +kernel
  have hmask : (parseIP "255.255.255.0").bind to4 = some [255, 255, 255, 0] := by decide +kernel
  have h := subnetBlock_top (p := 24) hip hmask (by decide +kernel) (by decide)
  obtain ⟨block, hok, htop, -⟩ := h.2.2 (by decide) (by decide)
  exact ⟨block, hok, htop.length_eq⟩

/-! ## Where the loops end -/

/-- **No operation of `rangeCandidates` wraps**: the capacity of the block,
which is `end - start + 1`, and the loop's counter. -/
structure RangeNoWrap (start end_ : UInt32) : Prop where
  capacity : end_.toNat - start.toNat + 1 < 2 ^ 32
  counter : end_.toNat + 1 < 2 ^ 32

/-- **The candidate loops end**, with the range from one end to the other and
with a block that is not empty, and nothing wraps in them. That a result is
returned is part of it. -/
structure LoopsEnd (ip mask : IP) (start end_ : UInt32) : Prop where
  range : ∃ block, (rangeCandidates start end_).run = some (.ok block)
    ∧ block.map UInt32.toNat = List.range' start.toNat (end_.toNat - start.toNat + 1)
  tail : ∃ block, (subnetTailCandidates (subnetOf ip mask) machineReservationBlockSize).run
    = some (.ok block) ∧ block ≠ []
  rangeNoWrap : RangeNoWrap start end_
  tailNoWrap : (tailArithmetic (subnetOf ip mask) machineReservationBlockSize).NoWrap

/-- A counting loop as a computation: what it returns is not an error. -/
theorem GoComp.run_liftM {α : Type} (x : Option α) : (liftM x : GoComp α).run = x.map .ok := by
  cases x <;> rfl

theorem rangeCandidates_eq {start end_ : UInt32} (hle : start ≤ end_) :
    (rangeCandidates start end_).run = (countUpTo start end_).map .ok := by
  unfold rangeCandidates
  rw [if_neg (UInt32.not_lt.mpr hle)]
  exact GoComp.run_liftM _

/-- **Where the candidate loops end.** For every address, every mask of prefix
length up to 30 and every range, exactly when the range does not end at the
largest number and the mask is not empty. At the first edge the loop runs for
ever, at the second the number of hosts has wrapped to zero. -/
theorem loopsEnd_iff {ip mask : IP} {p : ℕ} {start end_ : UInt32} (hip : ip.length = 4)
    (hmask : mask.length = 4) (hcont : ContiguousMask mask p) (hp : p ≤ 30)
    (hle : start ≤ end_) :
    LoopsEnd ip mask start end_ ↔ end_.toNat ≠ 2 ^ 32 - 1 ∧ p ≠ 0 := by
  have hend := end_.toNat_lt
  constructor
  · rintro ⟨-, ⟨block, hok, -⟩, hrange, -⟩
    refine ⟨fun hmax => absurd hrange.counter (by omega), fun hzero => ?_⟩
    obtain ⟨err, herr⟩ := subnetTailCandidates_small hip hmask hcont (Or.inl hzero)
      machineReservationBlockSize
    rw [hok] at herr
    cases herr
  · rintro ⟨hmax, hzero⟩
    have hle' : start.toNat ≤ end_.toNat := hle
    obtain ⟨block, hcount, hmap⟩ := countUpTo_eq start (show end_.toNat + 1 < 2 ^ 32 by omega)
    obtain ⟨tail, hok, htop, hwrap⟩ :=
      subnetTailCandidates_block hip hmask hcont (Nat.one_le_iff_ne_zero.mpr hzero) hp
    refine ⟨⟨block, ?_, ?_⟩, ⟨tail, hok, ?_⟩, ⟨by omega, by omega⟩, hwrap⟩
    · rw [rangeCandidates_eq hle, hcount]
      rfl
    · rw [hmap, Nat.sub_add_comm hle']
    · have hlow : 2 ^ 2 ≤ 2 ^ (32 - p) := Nat.pow_le_pow_right (by decide) (by omega)
      have hpos : 0 < min machineReservationBlockSize (2 ^ (32 - p) - 2) :=
        Nat.lt_min.mpr ⟨by decide, by omega⟩
      rw [← List.length_pos_iff, htop.length_eq]
      exact hpos

theorem loopsEnd_upper_half :
    LoopsEnd [192, 168, 122, 1] [255, 255, 255, 252] 0x80000000 0xFFFFFFFE :=
  (loopsEnd_iff (p := 30) rfl rfl (by decide +kernel) (by decide) (by decide)).mpr
    ⟨by decide, by decide⟩

/-- A range that ends at the last address of all is never returned, and a
network that is the whole address space has no block. -/
theorem not_loopsEnd_edges :
    (rangeCandidates 0xFFFFFFFE 0xFFFFFFFF).run = none
    ∧ ¬ LoopsEnd [192, 168, 122, 1] [255, 255, 255, 252] 0xFFFFFFFE 0xFFFFFFFF
    ∧ ¬ LoopsEnd [192, 168, 122, 1] [0, 0, 0, 0] 0x80000000 0x80000001 := by
  have hnone : (rangeCandidates 0xFFFFFFFE 0xFFFFFFFF).run = none := by
    rw [rangeCandidates_eq (by decide), countUpTo_eq_none (by decide)]
    rfl
  refine ⟨hnone, fun h => ?_, fun h => ?_⟩
  · obtain ⟨block, hok, -⟩ := h.range
    rw [hnone] at hok
    cases hok
  · obtain ⟨block, hok, -⟩ := h.tail
    have hcont : ContiguousMask [0, 0, 0, 0] 0 := by decide +kernel
    obtain ⟨err, herr⟩ := subnetTailCandidates_small
      (show ([192, 168, 122, 1] : IP).length = 4 from rfl) rfl hcont (Or.inl rfl)
      machineReservationBlockSize
    rw [hok] at herr
    cases herr

/-! ## The candidates of a network -/

/-- A loop that ends has counted consecutive numbers. -/
theorem countUpTo_consecutive {first last : UInt32} {l : List UInt32}
    (h : countUpTo first last = some l) :
    ∃ a n, l.map UInt32.toNat = List.range' a n ∧ n ≤ 2 ^ 32 := by
  have hlast : last.toNat + 1 < 2 ^ 32 := by
    by_contra hmax
    have := last.toNat_lt
    rw [countUpTo_eq_none (by omega)] at h
    cases h
  obtain ⟨l', hl', hmap⟩ := countUpTo_eq first hlast
  rw [h] at hl'
  cases hl'
  exact ⟨_, _, hmap, by omega⟩

theorem rangeCandidates_ok {start end_ : UInt32} {block : List UInt32}
    (h : (rangeCandidates start end_).run = some (.ok block)) :
    countUpTo start end_ = some block := by
  by_cases hle : start ≤ end_
  · rw [rangeCandidates_eq hle, Option.map_eq_some_iff] at h
    obtain ⟨_, hcount, hok⟩ := h
    cases hok
    exact hcount
  · rw [rangeCandidates, if_pos (UInt32.not_le.mp hle)] at h
    cases h

theorem subnetTailCandidates_ok {ipNet : IPNet} {size : ℕ} {block : List UInt32}
    (h : (subnetTailCandidates ipNet size).run = some (.ok block)) :
    ∃ first last, countUpTo first last = some block := by
  unfold subnetTailCandidates at h
  split at h
  · cases h
  · dsimp only at h
    split at h
    · cases h
    · rw [GoComp.run_liftM, Option.map_eq_some_iff] at h
      obtain ⟨_, hcount, hok⟩ := h
      cases hok
      exact ⟨_, _, hcount⟩

/-- **The candidates of a network are consecutive numbers**, wherever they
come from. In particular no candidate is listed twice. -/
theorem allocationCandidates_consecutive {network : Network} {candidates : List UInt32}
    (h : (allocationCandidates network).run = some (.ok candidates)) :
    ∃ a n, candidates.map UInt32.toNat = List.range' a n ∧ n ≤ 2 ^ 32 := by
  unfold allocationCandidates at h
  split at h
  · cases h
  · obtain ⟨ipNet, -, h⟩ := GoComp.run_bind_eq_ok.mp h
    split at h
    · exact countUpTo_consecutive (rangeCandidates_ok h)
    · obtain ⟨first, last, hcount⟩ := subnetTailCandidates_ok h
      exact countUpTo_consecutive hcount

end LibvirtProvider

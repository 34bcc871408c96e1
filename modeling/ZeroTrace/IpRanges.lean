import Mathlib.Data.Vector.Defs
import ZeroTrace.FlowKey

/-!
# Address ranges as networks

`ip_range_convert_to_cidr` cuts a range of addresses into networks.  The search for the
first network of a range starts with two addresses, so that no network of one address is
ever found, and it computes a shift by the full width of an address when it considers the
network of all addresses.  A range is therefore cut exactly when it consists of pairs of
addresses and does not start at 0 and reach the upper half of the address space.
-/

namespace ZeroTrace.Policy

open RustExec FlowGenerator Except BitVec Nat
open List hiding Vector

/-- `Ipv4Net` and `Ipv6Net`: an address and the length of its prefix. -/
structure IpNetN (w : Nat) where
  addr : BitVec w
  prefixLen : Nat
  deriving DecidableEq

inductive IpNet where
  | v4 (net : IpNetN 32)
  | v6 (net : IpNetN 128)
  deriving DecidableEq

section Convert

variable {w : Nat}

/-- `1 << count`. -/
def oneShl (w count : Nat) : Exec (BitVec w) :=
  if count < w then .ok (1#w <<< count) else .error .overflow

/-- `v4_mask_len_to_netmask` and `v6_mask_len_to_netmask`. -/
def maskLenToNetmask (w mask : Nat) : Exec (BitVec w) :=
  if w - mask < w then .ok (BitVec.allOnes w <<< (w - mask)) else .error .overflow

/-- `v4_get_last_ip` and `v6_get_last_ip`. -/
def getLastIp (ip : BitVec w) (mask : Nat) : Exec (BitVec w) :=
  maskLenToNetmask w mask >>= fun netmask => .ok (ip ||| ~~~netmask)

/-- The loop of `v4_get_first_mask` and `v6_get_first_mask`. -/
def firstMaskLoop (start finish : BitVec w) : List Nat → Exec Nat
  | [] => .ok 0
  | len :: lens =>
    oneShl w (w - len) >>= fun bit =>
      if start &&& bit ≠ 0 then .ok len
      else
        getLastIp start len >>= fun last =>
          if finish ≤ last then .ok len
          else
            checkedSub len 1 >>= fun shorter =>
              getLastIp start shorter >>= fun last =>
                if finish < last then .ok len else firstMaskLoop start finish lens

/-- `v4_get_first_mask` and `v6_get_first_mask`. -/
def getFirstMask (start finish : BitVec w) : Exec Nat :=
  firstMaskLoop start finish (List.range w).reverse

/-- `Ipv4Net::new` and `Ipv6Net::new`. -/
def IpNetN.new (addr : BitVec w) (prefixLen : Nat) : Option (IpNetN w) :=
  if prefixLen ≤ w then some ⟨addr, prefixLen⟩ else none

/-- The loop of `ipv4_range_convert` and `ipv6_range_convert`. -/
def rangeLoop (finish : BitVec w) : Nat → BitVec w → Exec (List (IpNetN w))
  | 0, _ => .error .outOfFuel
  | fuel + 1, start =>
    if start ≤ finish then
      getFirstMask start finish >>= fun maskLen =>
        unwrap (IpNetN.new start maskLen) >>= fun ip =>
          getLastIp start maskLen >>= fun lastIp =>
            if lastIp = BitVec.allOnes w then .ok [ip]
            else
              oneShl w (w - maskLen) >>= fun rhs =>
                if start.toNat + rhs.toNat < 2 ^ w then
                  rangeLoop finish fuel (start + rhs) >>= fun ips => .ok (ip :: ips)
                else .ok [ip]
    else .ok []

def rangeConvert (start finish : BitVec w) : Exec (List (IpNetN w)) :=
  rangeLoop finish (finish.toNat + 2 - start.toNat) start

def ipv4RangeConvert (start finish : BitVec 32) : Exec (List IpNet) :=
  rangeConvert start finish >>= fun ips => .ok (ips.map .v4)

def ipv6RangeConvert (start finish : BitVec 128) : Exec (List IpNet) :=
  rangeConvert start finish >>= fun ips => .ok (ips.map .v6)

/-- The octets of an address, the first of them the highest. -/
def fromOctets {n : Nat} (w : Nat) (octets : Vector (BitVec 8) n) : BitVec w :=
  BitVec.ofNat w (octets.toList.foldl (fun value octet => value * 256 + octet.toNat) 0)

def ipRangeConvertToCidr : IpAddr → IpAddr → Exec (List IpNet)
  | .v4 start, .v4 finish => ipv4RangeConvert (fromOctets 32 start) (fromOctets 32 finish)
  | .v6 start, .v6 finish => ipv6RangeConvert (fromOctets 128 start) (fromOctets 128 finish)
  | _, _ => .error .unreachable

end Convert

section Exactness

variable {w : Nat}

/-- The number of bits below a network's prefix. -/
def IpNetN.hostBits (net : IpNetN w) : Nat := w - net.prefixLen

/-- A network's addresses have its prefix. -/
def IpNetN.Contains (net : IpNetN w) (ip : BitVec w) : Prop :=
  ip.toNat / 2 ^ net.hostBits = net.addr.toNat / 2 ^ net.hostBits

instance (net : IpNetN w) (ip : BitVec w) : Decidable (net.Contains ip) :=
  inferInstanceAs (Decidable (_ = _))

/-- A network is given by its first address. -/
def IpNetN.Aligned (net : IpNetN w) : Prop := net.addr.toNat % 2 ^ net.hostBits = 0

/-- Networks are a range cut into pieces. -/
structure CutOf (start finish : BitVec w) (nets : List (IpNetN w)) : Prop where
  disjoint : nets.Pairwise fun a b => ∀ ip, ¬ (a.Contains ip ∧ b.Contains ip)
  aligned : ∀ net ∈ nets, net.Aligned
  union : ∀ ip, (∃ net ∈ nets, net.Contains ip) ↔ start ≤ ip ∧ ip ≤ finish

/-- A range of pairs that does not need the network of all addresses. -/
def Splits (start finish : BitVec w) : Prop :=
  start.toNat % 2 = 0 ∧ finish.toNat % 2 = 1 ∧
    ¬ (start.toNat = 0 ∧ 2 ^ (w - 1) ≤ finish.toNat)

variable {k : Nat} (ip : BitVec w) {mask : Nat}

theorem oneShl_ok (hk : k < w) : oneShl w k = .ok (twoPow w k) := by
  rw [oneShl, if_pos hk, twoPow_eq]

theorem oneShl_fails (hk : w ≤ k) : oneShl w k = .error .overflow :=
  if_neg (not_lt.mpr hk)

/-- The last address of the network with `k` bits below its prefix. -/
def lastOf (ip : BitVec w) (k : Nat) : BitVec w := ip ||| ~~~(BitVec.allOnes w <<< k)

theorem getLastIp_ok (h : w - mask < w) : getLastIp ip mask = .ok (lastOf ip (w - mask)) := by
  rw [getLastIp, maskLenToNetmask, if_pos h, ok_bind, lastOf]

theorem getLastIp_fails (h : w ≤ w - mask) : getLastIp ip mask = .error .overflow := by
  rw [getLastIp, maskLenToNetmask, if_neg (not_lt.mpr h), error_bind]

theorem toNat_lastOf (hk : k ≤ w) :
    (lastOf ip k).toNat = 2 ^ k * (ip.toNat / 2 ^ k) + (2 ^ k - 1) := by
  apply eq_of_testBit_eq
  intro i
  have hlt : 2 ^ k - 1 < 2 ^ k := Nat.sub_lt (Nat.two_pow_pos k) Nat.one_pos
  rw [testBit_two_pow_mul_add _ hlt, testBit_toNat, lastOf, getLsbD_or,
    getLsbD_not, getLsbD_shiftLeft, getLsbD_allOnes, testBit_two_pow_sub_one,
    testBit_div_two_pow, ← testBit_toNat]
  by_cases hi : i < k
  · have hw : i < w := by omega
    simp [hi, hw]
  have hadd : i - k + k = i := by omega
  by_cases hw : i < w
  · have hsub : i - k < w := by omega
    simp [hi, hw, hsub, hadd]
  · simp [hi, hw, hadd]

theorem toNat_lastOf_aligned {ip : BitVec w} (hk : k ≤ w) (h : ip.toNat % 2 ^ k = 0) :
    (lastOf ip k).toNat = ip.toNat + (2 ^ k - 1) := by
  rw [toNat_lastOf ip hk, Nat.mul_div_cancel' (Nat.dvd_of_mod_eq_zero h)]

variable {start : BitVec w}

theorem and_twoPow_eq_zero (hk : k < w) (h : start.toNat % 2 ^ k = 0) :
    start &&& twoPow w k = 0 ↔ start.toNat % 2 ^ (k + 1) = 0 := by
  have hbit : start.getLsbD k = decide (start.toNat / 2 ^ k % 2 = 1) := by
    rw [← testBit_toNat, testBit_eq_decide_div_mod_eq]
  rw [and_twoPow, hbit, mod_pow_succ, h]
  have htwo : twoPow w k ≠ 0#w := by
    intro heq
    have hzero := congrArg (·.getLsbD k) heq
    simp [hk] at hzero
  rcases mod_two_eq_zero_or_one (start.toNat / 2 ^ k) with hmod | hmod
  · simp [hmod]
  · simp [hmod, htwo]

variable {finish : BitVec w} {nets : List (IpNetN w)} {len : Nat} {net : IpNetN w} {fuel : Nat}
  {m : Nat}

/-- A network of more than one address, but not of all, that starts where the range starts and
lies within it. -/
def Leads (start finish : BitVec w) (len : Nat) : Prop :=
  0 < len ∧ len < w ∧ start.toNat % 2 ^ (w - len) = 0 ∧
    start.toNat + (2 ^ (w - len) - 1) ≤ finish.toNat

/-- **The first network of a range.**  While the loop runs, the network it considers starts
at the first address of the range and lies within the range. -/
theorem firstMaskLoop_ok (hall : ¬ (start.toNat = 0 ∧ 2 ^ (w - 1) ≤ finish.toNat))
    (hm : m < w) (haligned : start.toNat % 2 ^ (w - m) = 0)
    (hfits : start.toNat + (2 ^ (w - m) - 1) ≤ finish.toNat) :
    ∃ len, firstMaskLoop start finish (List.range (m + 1)).reverse = .ok len ∧
      Leads start finish len := by
  induction m with
  | zero =>
    -- the network of all addresses
    rw [Nat.sub_zero, Nat.mod_eq_of_lt start.isLt] at haligned
    have hpow : 2 ^ w = 2 * 2 ^ (w - 1) := by
      rw [← Nat.pow_succ', Nat.succ_eq_add_one, Nat.sub_add_cancel hm]
    rw [Nat.sub_zero] at hfits
    exact absurd ⟨haligned, by omega⟩ hall
  | succ m ih =>
    have hk : w - (m + 1) < w := by omega
    have hstep : w - (m + 1) + 1 = w - m := by omega
    have hdone : Leads start finish (m + 1) := ⟨succ_pos m, hm, haligned, hfits⟩
    rw [range_succ, reverse_concat, firstMaskLoop, oneShl_ok hk, ok_bind]
    by_cases hbit : start &&& twoPow w (w - (m + 1)) = 0
    · rw [if_neg (not_not.mpr hbit), getLastIp_ok start hk, ok_bind]
      by_cases hlast : finish ≤ lastOf start (w - (m + 1))
      · rw [if_pos hlast]
        exact ⟨_, rfl, hdone⟩
      have haligned' := (and_twoPow_eq_zero hk haligned).mp hbit
      rw [le_def, toNat_lastOf_aligned hk.le haligned] at hlast
      have hshorter : w - m < w := by
        by_contra hfull
        rw [hstep, show w - m = w by omega, mod_eq_of_lt start.isLt] at haligned'
        rw [show w - (m + 1) = w - 1 by omega] at hlast
        exact hall ⟨haligned', by omega⟩
      rw [hstep] at haligned'
      rw [if_neg (by rwa [le_def, toNat_lastOf_aligned hk.le haligned]),
        checkedSub_ok (succ_pos m), ok_bind, succ_sub_one,
        getLastIp_ok start hshorter, ok_bind]
      split_ifs with hover
      · exact ⟨_, rfl, hdone⟩
      · rw [lt_def, toNat_lastOf_aligned hshorter.le haligned'] at hover
        exact ih (by omega) haligned' (not_lt.mp hover)
    · rw [if_pos hbit]
      exact ⟨_, rfl, hdone⟩

theorem getFirstMask_ok (h : Splits start finish) (hle : start ≤ finish) :
    ∃ len, getFirstMask start finish = .ok len ∧ Leads start finish len := by
  obtain ⟨hstart, hfinish, hall⟩ := h
  rw [le_def] at hle
  cases w with
  | zero =>
    omega
  | succ m =>
    have hone : m + 1 - m = 1 := by omega
    exact firstMaskLoop_ok hall (lt_succ_self m) (by rw [hone]; exact hstart)
      (by rw [hone]; omega)

theorem IpNetN.Aligned.contains_iff (h : net.Aligned) (ip : BitVec w) :
    net.Contains ip ↔ net.addr.toNat ≤ ip.toNat ∧
      ip.toNat ≤ net.addr.toNat + (2 ^ net.hostBits - 1) := by
  have hpos := Nat.two_pow_pos net.hostBits
  have haddr := Nat.mul_div_cancel' (Nat.dvd_of_mod_eq_zero h)
  rw [IpNetN.Contains, Nat.div_eq_iff hpos, Nat.mul_comm _ (2 ^ _), haddr]
  omega

theorem cutOf_nil (h : ¬ start ≤ finish) : CutOf start finish [] where
  disjoint := List.Pairwise.nil
  aligned net hnet := absurd hnet not_mem_nil
  union ip := by
    rw [le_def] at h
    simp only [le_def, not_mem_nil, false_and, exists_false, false_iff]
    omega

theorem CutOf.cons (haddr : net.addr = start)
    (haligned : net.Aligned)
    (hrest : ∀ ip, (∃ net ∈ nets, net.Contains ip) ↔
      start.toNat + (2 ^ net.hostBits - 1) < ip.toNat ∧ ip.toNat ≤ finish.toNat)
    (hfits : start.toNat + (2 ^ net.hostBits - 1) ≤ finish.toNat)
    (hdisjoint : nets.Pairwise fun a b => ∀ ip, ¬ (a.Contains ip ∧ b.Contains ip))
    (hall : ∀ net ∈ nets, net.Aligned) : CutOf start finish (net :: nets) where
  disjoint := by
    refine pairwise_cons.mpr ⟨fun other hother ip hboth => ?_, hdisjoint⟩
    have hbefore := (haligned.contains_iff ip).mp hboth.1
    have hafter := (hrest ip).mp ⟨other, hother, hboth.2⟩
    rw [haddr] at hbefore
    omega
  aligned := forall_mem_cons.mpr ⟨haligned, hall⟩
  union ip := by
    simp only [mem_cons, exists_eq_or_imp]
    rw [hrest, haligned.contains_iff, haddr, le_def, le_def]
    omega

theorem IpNetN.new_ok (addr : BitVec w) (h : len ≤ w) :
    unwrap (IpNetN.new addr len) = .ok ⟨addr, len⟩ := by
  rw [IpNetN.new, if_pos h]
  rfl

/-- **A range of pairs is cut exactly.** -/
theorem rangeLoop_ok {finish : BitVec w}
    (hfuel : finish.toNat + 1 - start.toNat < fuel) (h : Splits start finish) :
    ∃ nets, rangeLoop finish fuel start = .ok nets ∧ CutOf start finish nets := by
  induction fuel generalizing start with
  | zero => exact absurd hfuel (not_lt_zero _)
  | succ fuel ih =>
    rw [rangeLoop]
    by_cases hle : start ≤ finish
    · obtain ⟨len, hmask, hpos, hlen, haligned, hfits⟩ := getFirstMask_ok h hle
      have hk : w - len < w := by omega
      have hlast := toNat_lastOf_aligned hk.le haligned
      rw [if_pos hle, hmask, ok_bind, IpNetN.new_ok start hlen.le, ok_bind,
        getLastIp_ok start hk, ok_bind]
      by_cases hend : lastOf start (w - len) = allOnes w
      · rw [if_pos hend]
        rw [hend, toNat_allOnes] at hlast
        refine ⟨_, rfl, CutOf.cons rfl haligned (fun ip => ?_) hfits List.Pairwise.nil
          nofun⟩
        simp only [not_mem_nil, false_and, exists_false, false_iff, IpNetN.hostBits]
        omega
      have hne : (lastOf start (w - len)).toNat ≠ 2 ^ w - 1 := fun heq =>
        hend (eq_of_toNat_eq (by rw [heq, toNat_allOnes]))
      have hrhs : (twoPow w (w - len)).toNat = 2 ^ (w - len) := by
        rw [toNat_twoPow, Nat.mod_eq_of_lt (Nat.pow_lt_pow_right (by decide) hk)]
      have hnext : (start + twoPow w (w - len)).toNat = start.toNat + 2 ^ (w - len) := by
        rw [toNat_add, hrhs, mod_eq_of_lt (by omega)]
      have heven : 2 ^ (w - len) % 2 = 0 := mod_eq_zero_of_dvd (dvd_pow_self 2 (by omega))
      obtain ⟨nets, hloop, hcut⟩ := @ih (start + twoPow w (w - len)) (by omega)
        ⟨by have := h.1; omega, h.2.1, by omega⟩
      rw [if_neg hend, oneShl_ok hk, ok_bind, hrhs, if_pos (by omega), hloop, ok_bind]
      refine ⟨_, rfl, CutOf.cons rfl haligned (fun ip => ?_) hfits hcut.disjoint hcut.aligned⟩
      rw [hcut.union, le_def, le_def, hnext, IpNetN.hostBits]
      dsimp only
      omega
    · rw [if_neg hle]
      exact ⟨[], rfl, cutOf_nil hle⟩

theorem firstMaskLoop_lt {lens : List Nat} (hw : 0 < w) (hlens : ∀ l ∈ lens, l < w)
    (h : firstMaskLoop start finish lens = .ok len) : len < w := by
  induction lens with
  | nil => exact ok.inj h ▸ hw
  | cons l lens ih =>
    obtain ⟨hl, hlens⟩ := forall_mem_cons.mp hlens
    obtain ⟨bit, -, h⟩ := bind_eq_ok h
    split at h
    · exact ok.inj h ▸ hl
    obtain ⟨last, -, h⟩ := bind_eq_ok h
    split at h
    · exact ok.inj h ▸ hl
    obtain ⟨shorter, -, h⟩ := bind_eq_ok h
    obtain ⟨last', -, h⟩ := bind_eq_ok h
    split at h
    · exact ok.inj h ▸ hl
    · exact ih hlens h

theorem getFirstMask_lt (hw : 0 < w) (h : getFirstMask start finish = .ok len) : len < w :=
  firstMaskLoop_lt hw (fun _ hl => mem_range.mp (mem_reverse.mp hl)) h

theorem firstMaskLoop_fails (hstart : start.toNat = 0) (hfinish : 2 ^ (w - 1) ≤ finish.toNat)
    (hm : m < w) : ∃ e, firstMaskLoop start finish (List.range (m + 1)).reverse = .error e := by
  induction m with
  | zero =>
    refine ⟨.overflow, ?_⟩
    rw [show (List.range (0 + 1)).reverse = [0] from rfl, firstMaskLoop,
      oneShl_fails (show w ≤ w - 0 from le_refl w), error_bind]
  | succ m ih =>
    have hk : w - (m + 1) < w := by omega
    have hzero : ∀ k, start.toNat % 2 ^ k = 0 := fun k => by rw [hstart, zero_mod]
    have hlow : ∀ k, k < w → (lastOf start k).toNat < finish.toNat := by
      intro k hkw
      rw [toNat_lastOf_aligned hkw.le (hzero k), hstart]
      have hle : 2 ^ k ≤ 2 ^ (w - 1) := Nat.pow_le_pow_right (by decide) (by omega)
      have hpos := Nat.two_pow_pos k
      omega
    rw [range_succ, reverse_concat, firstMaskLoop, oneShl_ok hk, ok_bind,
      if_neg (not_not.mpr ((and_twoPow_eq_zero hk (hzero _)).mpr (hzero _))),
      getLastIp_ok start hk, ok_bind, if_neg (by rw [le_def]; have := hlow _ hk; omega),
      checkedSub_ok (succ_pos m), ok_bind, succ_sub_one]
    by_cases hshorter : w - m < w
    · rw [getLastIp_ok start hshorter, ok_bind,
        if_neg (by rw [lt_def]; have := hlow _ hshorter; omega)]
      exact ih (by omega)
    · rw [getLastIp_fails start (not_lt.mp hshorter), error_bind]
      exact ⟨.overflow, rfl⟩

/-- All networks have at least two addresses, and the first one is written with the first
address of the range. -/
theorem rangeLoop_shape {finish : BitVec w} (hw : 0 < w)
    (h : rangeLoop finish fuel start = .ok nets) :
    (∀ net ∈ nets, net.prefixLen < w) ∧
      (start ≤ finish → ∃ len, getFirstMask start finish = .ok len ∧ ⟨start, len⟩ ∈ nets) := by
  induction fuel generalizing start nets with
  | zero => cases h
  | succ fuel ih =>
    rw [rangeLoop] at h
    by_cases hle : start ≤ finish
    · rw [if_pos hle] at h
      obtain ⟨len, hmask, h⟩ := bind_eq_ok h
      have hlen := getFirstMask_lt hw hmask
      rw [IpNetN.new_ok start hlen.le, ok_bind] at h
      obtain ⟨last, -, h⟩ := bind_eq_ok h
      have hsingle : ∀ net ∈ [(⟨start, len⟩ : IpNetN w)], net.prefixLen < w :=
        forall_mem_singleton.mpr hlen
      split at h
      · obtain rfl := ok.inj h
        exact ⟨hsingle, fun _ => ⟨len, hmask, mem_singleton_self _⟩⟩
      obtain ⟨rhs, -, h⟩ := bind_eq_ok h
      split at h
      · obtain ⟨rest, hrest, h⟩ := bind_eq_ok h
        obtain rfl := ok.inj h
        exact ⟨forall_mem_cons.mpr ⟨hlen, (ih hrest).1⟩, fun _ => ⟨len, hmask, mem_cons_self⟩⟩
      · obtain rfl := ok.inj h
        exact ⟨hsingle, fun _ => ⟨len, hmask, mem_singleton_self _⟩⟩
    · rw [if_neg hle] at h
      obtain rfl := ok.inj h
      exact ⟨nofun, fun hle' => absurd hle' hle⟩

/-- **A range is cut if and only if it consists of pairs** and does not need the network of
all addresses. -/
theorem rangeConvert_cut_iff (hw : 0 < w) (hle : start ≤ finish) :
    (∃ nets, rangeConvert start finish = .ok nets ∧ CutOf start finish nets) ↔
      Splits start finish := by
  constructor
  · rintro ⟨nets, hok, hcut⟩
    obtain ⟨hshort, hfirst⟩ := rangeLoop_shape hw hok
    obtain ⟨len, hmask, hmem⟩ := hfirst hle
    have hlen := getFirstMask_lt hw hmask
    have hpair : ∀ k, 0 < k → 2 ∣ 2 ^ k := fun k hk => dvd_pow_self 2 (ne_of_gt hk)
    refine ⟨?_, ?_, ?_⟩
    · have haligned := hcut.aligned _ hmem
      have hdvd := (hpair (w - len) (by omega)).trans (dvd_of_mod_eq_zero haligned)
      exact mod_eq_zero_of_dvd hdvd
    · -- with an even address, a network has the next one too
      by_contra heven
      have hpow : 2 ^ w % 2 = 0 := mod_eq_zero_of_dvd (hpair w hw)
      obtain ⟨net, hnet, hcontains⟩ := (hcut.union finish).mpr ⟨hle, BitVec.le_refl finish⟩
      have hnext : (BitVec.ofNat w (finish.toNat + 1)).toNat = finish.toNat + 1 := by
        rw [toNat_ofNat, mod_eq_of_lt (by omega)]
      have hcontains' : net.Contains (BitVec.ofNat w (finish.toNat + 1)) := by
        have hhost : 0 < net.hostBits := Nat.sub_pos_of_lt (hshort net hnet)
        obtain ⟨j, hj⟩ := exists_eq_succ_of_ne_zero (ne_of_gt hhost)
        rw [IpNetN.Contains, ← hcontains, hnext, hj, Nat.pow_succ', ← Nat.div_div_eq_div_mul,
          ← Nat.div_div_eq_div_mul]
        congr 1
        omega
      have hover := ((hcut.union _).mp ⟨net, hnet, hcontains'⟩).2
      rw [le_def, hnext] at hover
      omega
    · rintro ⟨hstart, hfinish⟩
      obtain ⟨m, rfl⟩ := exists_eq_succ_of_ne_zero (ne_of_gt hw)
      obtain ⟨e, hfails⟩ := firstMaskLoop_fails hstart hfinish (lt_succ_self m)
      have hmask' : (.error e : Exec Nat) = .ok len := hfails.symm.trans hmask
      cases hmask'
  · intro h
    rw [le_def] at hle
    exact rangeLoop_ok (by omega) h

/-- Two addresses of one family in order. -/
def Ordered : IpAddr → IpAddr → Prop
  | .v4 start, .v4 finish => fromOctets 32 start ≤ fromOctets 32 finish
  | .v6 start, .v6 finish => fromOctets 128 start ≤ fromOctets 128 finish
  | _, _ => False

/-- The conversion of a range delivers networks that cut it. -/
def Converts : IpAddr → IpAddr → Prop
  | .v4 start, .v4 finish => ∃ nets,
    ipRangeConvertToCidr (.v4 start) (.v4 finish) = .ok (nets.map IpNet.v4) ∧
      CutOf (fromOctets 32 start) (fromOctets 32 finish) nets
  | .v6 start, .v6 finish => ∃ nets,
    ipRangeConvertToCidr (.v6 start) (.v6 finish) = .ok (nets.map IpNet.v6) ∧
      CutOf (fromOctets 128 start) (fromOctets 128 finish) nets
  | _, _ => False

/-- A range of pairs of one family. -/
def Convertible : IpAddr → IpAddr → Prop
  | .v4 start, .v4 finish => Splits (fromOctets 32 start) (fromOctets 32 finish)
  | .v6 start, .v6 finish => Splits (fromOctets 128 start) (fromOctets 128 finish)
  | _, _ => False

theorem bind_map_eq_ok_iff {α β : Type} {f : α → β} (hf : f.Injective) {x : Exec (List α)}
    {ys : List α} : (x >>= fun xs => .ok (xs.map f)) = .ok (ys.map f) ↔ x = .ok ys := by
  constructor
  · intro h
    obtain ⟨xs, hx, hmap⟩ := bind_eq_ok h
    rw [hx, (map_inj_right fun _ _ heq => hf heq).mp (ok.inj hmap)]
  · rintro rfl
    rfl

/-- **Ranges are converted exactly if and only if they consist of pairs** and do not reach
from 0 into the upper half of the addresses. -/
theorem converts_iff {start finish : IpAddr} (h : Ordered start finish) :
    Converts start finish ↔ Convertible start finish := by
  cases start with
  | v4 start =>
    cases finish with
    | v4 finish =>
      have hnets := rangeConvert_cut_iff (by decide) h
      simp only [Converts, ipRangeConvertToCidr, ipv4RangeConvert]
      simp only [bind_map_eq_ok_iff fun _ _ => IpNet.v4.inj]
      exact hnets
    | v6 finish => exact absurd h not_false
  | v6 start =>
    cases finish with
    | v4 finish => exact absurd h not_false
    | v6 finish =>
      have hnets := rangeConvert_cut_iff (by decide) h
      simp only [Converts, ipRangeConvertToCidr, ipv6RangeConvert]
      simp only [bind_map_eq_ok_iff fun _ _ => IpNet.v6.inj]
      exact hnets

/-- The range of the two addresses 0.0.0.0 and 0.0.0.1. -/
theorem converts_pair :
    Ordered (.v4 (.replicate 4 0)) (.v4 (.ofFn fun i => if i = 3 then 1 else 0)) ∧
      Converts (.v4 (.replicate 4 0)) (.v4 (.ofFn fun i => if i = 3 then 1 else 0)) := by
  have hordered : Ordered (.v4 (.replicate 4 0)) (.v4 (.ofFn fun i => if i = 3 then 1 else 0)) := by
    unfold Ordered
    decide
  refine ⟨hordered, (converts_iff hordered).mpr ?_⟩
  unfold Convertible Splits
  decide

/-- The address 1.1.1.1 becomes 1.1.1.1/31, which has 1.1.1.0 too, and the range of all
addresses is not converted at all. -/
theorem single_and_full_ranges :
    ipRangeConvertToCidr (.v4 (.replicate 4 1)) (.v4 (.replicate 4 1)) =
        .ok [.v4 ⟨0x01010101, 31⟩] ∧
      IpNetN.Contains ⟨0x01010101, 31⟩ 0x01010100#32 ∧
      ipRangeConvertToCidr (.v6 (.replicate 16 1)) (.v6 (.replicate 16 1)) =
        .ok [.v6 ⟨0x01010101010101010101010101010101, 127⟩] ∧
      ipRangeConvertToCidr (.v4 (.replicate 4 0)) (.v4 (.replicate 4 255)) = .error .overflow ∧
      ipRangeConvertToCidr (.v6 (.replicate 16 0)) (.v6 (.replicate 16 255)) =
        .error .overflow := by
  decide +kernel

end Exactness

end ZeroTrace.Policy

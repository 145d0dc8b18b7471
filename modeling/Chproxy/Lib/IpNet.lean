/-
IP addresses and networks as byte strings, for a library that keeps both address families in one type:
an IPv4 address also has a form of 16 bytes, and a network is a masked address with its mask. For prefix
lengths of whole bytes, membership means that the leading bytes agree.
-/
import Mathlib.Data.List.Basic

namespace IpNet

/-! ## Addresses and networks -/

abbrev Bytes := List UInt8

/-- An address of either family. -/
structure Addr where
  is4 : Bool
  bytes : Bytes
  length_eq : bytes.length = if is4 then 4 else 16
  deriving DecidableEq

def Addr.bitLen (a : Addr) : Nat := if a.is4 then 32 else 128

/-- What stands before an IPv4 address in its form of 16 bytes. -/
def v4InV6Prefix : Bytes := [0, 0, 0, 0, 0, 0, 0, 0, 0, 0, 255, 255]

def Addr.as16 (a : Addr) : Bytes := if a.is4 then v4InV6Prefix ++ a.bytes else a.bytes

/-- The four bytes of an IPv4 address in either form. -/
def to4 (ip : Bytes) : Option Bytes :=
  if ip.length = 4 then some ip
  else if ip.length = 16 ∧ ip.take 12 = v4InV6Prefix then some (ip.drop 12)
  else none

/-- A mask of so many bytes that begins with `ones` bits. -/
def cidrMask (ones : Nat) : Nat → Bytes
  | 0 => []
  | bytes + 1 =>
    if 8 ≤ ones then 255 :: cidrMask (ones - 8) bytes
    else (~~~((255 : UInt8) >>> UInt8.ofNat ones)) :: cidrMask 0 bytes

def andBytes (ip mask : Bytes) : Bytes := List.zipWith (· &&& ·) ip mask

/-- An address under a mask; a mask of four bytes applies to an IPv4 address in either form. -/
def maskIP (ip mask : Bytes) : Bytes :=
  let mask := if mask.length = 16 ∧ ip.length = 4 ∧ mask.take 12 = List.replicate 12 255 then mask.drop 12 else mask
  let ip := if mask.length = 4 ∧ ip.length = 16 ∧ ip.take 12 = v4InV6Prefix then ip.drop 12 else ip
  if ip.length = mask.length then andBytes ip mask else []

/-- The number and the mask of a network, both empty when they do not fit each other. -/
def networkNumberAndMask (ip mask : Bytes) : Bytes × Bytes :=
  let ip := (to4 ip).getD ip
  if ip.length ≠ 4 ∧ ip.length ≠ 16 then ([], [])
  else if mask.length = 4 then if ip.length ≠ 4 then ([], []) else (ip, mask)
  else if mask.length = 16 then if ip.length = 4 then (ip, mask.drop 12) else (ip, mask)
  else ([], [])

/-- Membership of an address in the network with this number and mask. -/
def contains (netIP netMask ip : Bytes) : Bool :=
  let (nn, m) := networkNumberAndMask netIP netMask
  let ip := (to4 ip).getD ip
  ip.length == nn.length && andBytes nn m == andBytes ip m

/-- The number and the mask of the network of an address and a prefix length. -/
def Addr.network (a : Addr) (ones : Nat) : Bytes × Bytes :=
  let m := cidrMask ones (a.bitLen / 8)
  (maskIP a.as16 m, m)

/-! ## Masks of whole bytes -/

theorem Addr.as16_length (a : Addr) : a.as16.length = 16 := by
  obtain ⟨is4, bytes, hlength⟩ := a
  cases is4 <;> simp_all [as16, v4InV6Prefix]

theorem cidrMask_zero : ∀ n, cidrMask 0 n = List.replicate n 0
  | 0 => rfl
  | n + 1 => by
    rw [cidrMask, if_neg (by omega), cidrMask_zero n]
    rfl

theorem cidrMask_bytes (n : Nat) : ∀ k, cidrMask (8 * k) (k + n) = List.replicate k 255 ++ List.replicate n 0
  | 0 => by simp [cidrMask_zero]
  | k + 1 => by
    have hsub : 8 * (k + 1) - 8 = 8 * k := by omega
    rw [Nat.add_right_comm, cidrMask, if_pos (by omega), hsub, cidrMask_bytes n k]
    rfl

theorem andBytes_ones : ∀ (l : Bytes), andBytes l (List.replicate l.length 255) = l
  | [] => rfl
  | x :: l => by
    have hx : x &&& 255 = x := UInt8.and_neg_one
    rw [List.length_cons, List.replicate_succ, andBytes, List.zipWith_cons_cons, hx]
    exact congrArg _ (andBytes_ones l)

theorem andBytes_zeros : ∀ (l : Bytes), andBytes l (List.replicate l.length 0) = List.replicate l.length 0
  | [] => rfl
  | x :: l => by
    rw [List.length_cons, List.replicate_succ, andBytes, List.zipWith_cons_cons, UInt8.and_zero]
    exact congrArg _ (andBytes_zeros l)

/-- Under a mask of whole bytes the leading bytes stay and the others are cleared. -/
theorem andBytes_cidrMask {l : Bytes} {k n : Nat} (h : l.length = k + n) :
    andBytes l (cidrMask (8 * k) (k + n)) = l.take k ++ List.replicate n 0 := by
  have htake : (l.take k).length = k := by rw [List.length_take]; omega
  have hdrop : (l.drop k).length = n := by rw [List.length_drop]; omega
  have hsplit : andBytes (l.take k ++ l.drop k) (List.replicate k 255 ++ List.replicate n 0) =
      andBytes (l.take k) (List.replicate k 255) ++ andBytes (l.drop k) (List.replicate n 0) :=
    List.zipWith_append (by rw [htake, List.length_replicate])
  have hones := andBytes_ones (l.take k)
  have hzeros := andBytes_zeros (l.drop k)
  rw [htake] at hones
  rw [hdrop] at hzeros
  rw [List.take_append_drop, hones, hzeros] at hsplit
  rw [cidrMask_bytes]
  exact hsplit

theorem cidrMask_length : ∀ (n ones : Nat), (cidrMask ones n).length = n
  | 0, _ => rfl
  | n + 1, ones => by
    unfold cidrMask
    split <;> simp [cidrMask_length n]

/-- Two byte strings agree under a mask of whole bytes exactly when their leading bytes agree. -/
theorem andBytes_cidrMask_eq_iff {l l' : Bytes} {k n : Nat} (h : l.length = k + n) (h' : l'.length = k + n) :
    andBytes l (cidrMask (8 * k) (k + n)) = andBytes l' (cidrMask (8 * k) (k + n)) ↔ l.take k = l'.take k := by
  rw [andBytes_cidrMask h, andBytes_cidrMask h', List.append_cancel_right_eq]

/-! ## Membership -/

theorem to4_length {ip x : Bytes} (h : to4 ip = some x) : x.length = 4 := by
  unfold to4 at h
  split at h
  · cases h; assumption
  · split at h
    · rename_i hmapped
      cases h
      rw [List.length_drop, hmapped.1]
    · cases h

theorem to4_of_length {ip : Bytes} (h : ip.length = 4) : to4 ip = some ip := if_pos h

/-- The IPv4 address a form of 16 bytes stands for. -/
theorem to4_eq_some_iff {ip x : Bytes} (h : ip.length = 16) (hx : x.length = 4) :
    to4 ip = some x ↔ ip = v4InV6Prefix ++ x := by
  unfold to4
  rw [if_neg (by omega)]
  constructor
  · intro hsome
    split at hsome
    · rename_i hmapped
      cases hsome
      rw [← hmapped.2, List.take_append_drop]
    · cases hsome
  · rintro rfl
    have hstart : v4InV6Prefix.length = 12 := rfl
    rw [if_pos ⟨h, List.take_left' hstart⟩, List.drop_left' hstart]

theorem networkNumberAndMask_same {ip mask : Bytes} (hip : to4 ip = some ip ∨ to4 ip = none ∧ ip.length = 16)
    (hmask : mask.length = ip.length) : networkNumberAndMask ip mask = (ip, mask) := by
  unfold networkNumberAndMask
  rcases hip with h4 | ⟨hnone, h16⟩
  · have hlength := to4_length h4
    simp [h4, hlength, hmask]
  · simp [hnone, h16, hmask]

theorem contains_iff {nn m ip : Bytes} (hnn : to4 nn = some nn ∨ to4 nn = none ∧ nn.length = 16)
    (hm : m.length = nn.length) :
    contains nn m ip = true ↔
      ((to4 ip).getD ip).length = nn.length ∧ andBytes nn m = andBytes ((to4 ip).getD ip) m := by
  unfold contains
  rw [networkNumberAndMask_same hnn hm]
  simp

/-- The number of a network of whole bytes has the leading bytes of the address. -/
theorem andBytes_cidrMask_take {l : Bytes} {k n : Nat} (h : l.length = k + n) :
    (andBytes l (cidrMask (8 * k) (k + n))).length = k + n ∧
      (andBytes l (cidrMask (8 * k) (k + n))).take k = l.take k := by
  have htake : (l.take k).length = k := by rw [List.length_take]; omega
  rw [andBytes_cidrMask h]
  exact ⟨by rw [List.length_append, htake, List.length_replicate], List.take_left' htake⟩

/-- An IPv4 network of whole bytes holds the IPv4 addresses with its leading bytes. -/
theorem Addr.contains_network4 {a : Addr} (h4 : a.is4 = true) {k n : Nat} (hk : 4 = k + n) {ip : Bytes}
    (hip : ip.length = 16) :
    contains (a.network (8 * k)).1 (a.network (8 * k)).2 ip = true ↔
      ∃ x, to4 ip = some x ∧ x.take k = a.bytes.take k := by
  have hlength : a.bytes.length = 4 := by rw [a.length_eq, h4]; rfl
  have hnetwork : a.network (8 * k) = (andBytes a.bytes (cidrMask (8 * k) 4), cidrMask (8 * k) 4) := by
    have hstart : v4InV6Prefix.length = 12 := rfl
    simp [network, bitLen, as16, h4, maskIP, cidrMask_length, hlength, List.take_left' hstart,
      List.drop_left' hstart, hstart]
  rw [hk] at hlength hnetwork
  obtain ⟨hnumber, htake⟩ := andBytes_cidrMask_take hlength
  rw [hnetwork, contains_iff (.inl (to4_of_length (hnumber.trans hk.symm))) (by rw [cidrMask_length, hnumber]), hnumber]
  cases hto4 : to4 ip with
  | none =>
    have hne : ip.length ≠ k + n := by omega
    simp [hne]
  | some x =>
    have hx : x.length = k + n := (to4_length hto4).trans hk
    simp only [Option.getD_some, hx, true_and, andBytes_cidrMask_eq_iff hnumber hx, htake, Option.some.injEq,
      exists_eq_left']
    exact eq_comm

/-- An IPv4 network of 32 bits holds its address. -/
theorem Addr.contains_host4 {a : Addr} (h4 : a.is4 = true) {ip : Bytes} (hip : ip.length = 16) :
    contains (a.network 32).1 (a.network 32).2 ip = true ↔ a.as16 = ip := by
  have hlength : a.bytes.length = 4 := by rw [a.length_eq, h4]; rfl
  have hhost : contains (a.network 32).1 (a.network 32).2 ip = true ↔
      ∃ x, to4 ip = some x ∧ x.take 4 = a.bytes.take 4 := contains_network4 h4 (k := 4) (n := 0) rfl hip
  rw [hhost, as16, if_pos h4]
  constructor
  · rintro ⟨x, hx, htake⟩
    have hxlength := to4_length hx
    rw [List.take_of_length_le (Nat.le_of_eq hxlength), List.take_of_length_le (Nat.le_of_eq hlength)] at htake
    rw [← htake]
    exact ((to4_eq_some_iff hip hxlength).1 hx).symm
  · intro heq
    exact ⟨a.bytes, (to4_eq_some_iff hip hlength).2 heq.symm, rfl⟩

/-- An IPv6 network of at most ten whole bytes holds the addresses with its leading bytes, and among them
no IPv4 address in its form of 16 bytes. -/
theorem Addr.contains_network6 {a : Addr} (h6 : a.is4 = false) {k n : Nat} (hk : 16 = k + n) (hk10 : k ≤ 10)
    {ip : Bytes} (hip : ip.length = 16) :
    contains (a.network (8 * k)).1 (a.network (8 * k)).2 ip = true ↔
      to4 ip = none ∧ ip.take k = a.bytes.take k := by
  have hlength : a.bytes.length = 16 := by rw [a.length_eq, h6]; rfl
  have hnetwork : a.network (8 * k) = (andBytes a.bytes (cidrMask (8 * k) 16), cidrMask (8 * k) 16) := by
    simp [network, bitLen, as16, h6, maskIP, cidrMask_length, hlength]
  rw [hk] at hlength hnetwork
  obtain ⟨hnumber, htake⟩ := andBytes_cidrMask_take hlength
  -- the eleventh byte of the number is cleared, so the number is no IPv4 address
  have hto4 : to4 (andBytes a.bytes (cidrMask (8 * k) (k + n))) = none := by
    have heleventh : (andBytes a.bytes (cidrMask (8 * k) (k + n)))[10]? = some 0 := by
      rw [andBytes_cidrMask hlength, List.getElem?_append_right (by rw [List.length_take]; omega),
        List.getElem?_replicate, if_pos (by rw [List.length_take]; omega)]
    unfold to4
    rw [if_neg (by omega), if_neg]
    rintro ⟨_, hstart⟩
    have hmapped : ((andBytes a.bytes (cidrMask (8 * k) (k + n))).take 12)[10]? = some 255 := by rw [hstart]; rfl
    rw [List.getElem?_take_of_lt (by omega), heleventh] at hmapped
    exact absurd hmapped (by decide)
  rw [hnetwork, contains_iff (.inr ⟨hto4, hnumber.trans hk.symm⟩) (by rw [cidrMask_length, hnumber]), hnumber]
  cases hip4 : to4 ip with
  | some x =>
    have hx : x.length ≠ k + n := by have := to4_length hip4; omega
    simp [hx]
  | none =>
    have hip' : ip.length = k + n := hip.trans hk
    simp only [Option.getD_none, hip', true_and, andBytes_cidrMask_eq_iff hnumber hip', htake]
    exact eq_comm

end IpNet

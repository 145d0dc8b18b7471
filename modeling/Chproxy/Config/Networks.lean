/-
`allowed_networks` (`config/config.go`, `config/types.go`, `config/utils.go`): from the texts of a list,
which may name groups, to networks, and from these to the decision on a remote address. Beside it stands
what the list means: everything when it is empty, otherwise the networks of its groups, its networks in
CIDR notation, and its plain addresses.
-/
import Chproxy.Config.Types
import Chproxy.Lib.Fallible
import Chproxy.Lib.IpNet
import Chproxy.Lib.Tables

namespace Chproxy.Config

open Fallible IpNet

/-! ## Package `net` -/

/-- The parsers of package `net` that are used: of an address without a zone, and of `host:port`. -/
structure NetParsers where
  parseAddr : List Char → Option Addr
  splitHostPort : List Char → Option (List Char)

/-- `strings.Cut(s, "/")`. -/
def cutSlash (s : List Char) : List Char × Option (List Char) :=
  (s.takeWhile (· ≠ '/'), (s.dropWhile (· ≠ '/')).tail?)

/-- A prefix length; the bound of the source on its digits is far above any that is accepted. -/
def dtoi (s : List Char) : Option Nat :=
  if s ≠ [] ∧ s.all Char.isDigit = true then some (Nat.ofDigitChars 10 s 0) else none

def NetParsers.parseCIDR (net : NetParsers) (s : List Char) : Option IPNet :=
  match cutSlash s with
  | (_, none) => none
  | (addr, some mask) =>
    match net.parseAddr addr, dtoi mask with
    | some a, some n => if n ≤ a.bitLen then some ⟨(a.network n).1, (a.network n).2⟩ else none
    | _, _ => none

def IPNet.contains (n : IPNet) (ip : Bytes) : Bool := IpNet.contains n.ip n.mask ip

/-! ## `groupToNetwork` and `Networks` -/

inductive NetworkError
  | suspiciousMask
  | wrongNetwork (s : String)
  | groupNameMissing
  | groupNetworksMissing
  | duplicateGroup (name : String)
  deriving DecidableEq, Repr

def entireIPv4 : String := "0.0.0.0/0"

def stringToIPnet (net : NetParsers) (s : String) : Except NetworkError IPNet :=
  if s = entireIPv4 then .error .suspiciousMask
  else
    -- `/32` is also appended to an IPv6 address
    let ip := if '/' ∈ s.toList then s.toList else s.toList ++ ['/', '3', '2']
    match net.parseCIDR ip with
    | none => .error (.wrongNetwork s)
    | some ipnet => .ok ipnet

/-- `Networks.UnmarshalYAML`, after the list of texts has been read. -/
def unmarshalNetworks (net : NetParsers) (s : List String) : Except NetworkError Networks :=
  s.mapM (stringToIPnet net)

structure NetworkGroups where
  name : String
  networks : Networks
  deriving DecidableEq, Repr

def NetworkGroups.validate (ng : NetworkGroups) : Except NetworkError Unit :=
  if ng.name.length = 0 then .error .groupNameMissing
  else if ng.networks.length = 0 then .error .groupNetworksMissing
  else .ok ()

/-- `networkReg`: the networks of the groups by name. -/
abbrev NetworkReg := AList fun _ : String => Networks

def networkReg (reg : NetworkReg) : List NetworkGroups → Except NetworkError NetworkReg
  | [] => .ok reg
  | ng :: groups =>
    if (reg.lookup ng.name).isSome then .error (.duplicateGroup ng.name)
    else networkReg (reg.insert ng.name ng.networks) groups

/-- What one text adds to the networks: those of the group of this name, or the one it spells. -/
def networksOf (net : NetParsers) (reg : NetworkReg) (v : String) : Except NetworkError Networks :=
  match reg.lookup v with
  | some group => .ok group
  | none => do
    let ipnet ← stringToIPnet net v
    .ok [ipnet]

def groupToNetwork (net : NetParsers) (reg : NetworkReg) (src : List String) : Except NetworkError Networks := do
  let dst ← src.mapM (networksOf net reg)
  .ok dst.flatten

/-- `Networks.Contains`; `none` when it panics, on an address that does not parse. -/
def Networks.contains (net : NetParsers) (n : Networks) (addr : List Char) : Option Bool :=
  if n.length = 0 then some true
  else
    -- only an address when the proxy middleware is enabled
    let h := (net.splitHostPort addr).getD addr
    match net.parseAddr h with
    | none => none
    | some ip => some (n.any (·.contains ip.as16))

/-! ## What a list means -/

section Meaning

variable (net : NetParsers) (reg : NetworkReg)

/-- The address is in a network of the group, in the network in CIDR notation, or it is the address. -/
def Listed (v : String) (ip : Bytes) : Prop :=
  match reg.lookup v with
  | some group => ∃ n ∈ group, n.contains ip = true
  | none =>
    if '/' ∈ v.toList then ∃ n, net.parseCIDR v.toList = some n ∧ n.contains ip = true
    else ∃ a, net.parseAddr v.toList = some a ∧ a.as16 = ip

def Allowed (src : List String) (ip : Bytes) : Prop := src = [] ∨ ∃ v ∈ src, Listed net reg v ip

/-- The text is an IPv6 address without a prefix length. -/
def Plain6 (v : String) (a : Addr) : Prop :=
  reg.lookup v = none ∧ '/' ∉ v.toList ∧ net.parseAddr v.toList = some a ∧ a.is4 = false

/-- An IPv6 address that agrees with `a` in the first 32 bits. -/
def SharesLeading (a : Addr) (ip : Bytes) : Prop := to4 ip = none ∧ ip.take 4 = a.bytes.take 4

/-- The plain IPv6 addresses of the list make no difference: the address is listed by something else, or
it agrees with one of them in the first 32 bits exactly when it is one of them. -/
def Plain6Harmless (src : List String) (ip : Bytes) : Prop :=
  (∃ v ∈ src, Listed net reg v ip ∧ ∀ a, ¬Plain6 net reg v a) ∨
  ((∃ v ∈ src, ∃ a, Plain6 net reg v a ∧ SharesLeading a ip) ↔
    ∃ v ∈ src, ∃ a, Plain6 net reg v a ∧ a.as16 = ip)

end Meaning

/-! ## One text of a list -/

section Texts

variable {net : NetParsers} {reg : NetworkReg} {v : String} {ip : Bytes}

theorem cutSlash_append {s : List Char} (h : '/' ∉ s) (t : List Char) : cutSlash (s ++ '/' :: t) = (s, some t) := by
  have hs : ∀ c ∈ s, decide (c ≠ '/') = true := by
    intro c hc
    simpa using fun heq : c = '/' => h (heq ▸ hc)
  rw [cutSlash, List.takeWhile_append_of_pos hs, List.dropWhile_append_of_pos hs]
  simp

theorem stringToIPnet_ok {n : IPNet} (h : stringToIPnet net v = .ok n) :
    net.parseCIDR (if '/' ∈ v.toList then v.toList else v.toList ++ ['/', '3', '2']) = some n := by
  unfold stringToIPnet at h
  by_cases hentire : v = entireIPv4
  · rw [if_pos hentire] at h
    cases h
  rw [if_neg hentire] at h
  dsimp only at h
  cases hcidr : net.parseCIDR (if '/' ∈ v.toList then v.toList else v.toList ++ ['/', '3', '2']) with
  | none =>
    rw [hcidr] at h
    cases h
  | some n' =>
    rw [hcidr] at h
    cases h
    rfl

/-- A text without a slash is an address, taken for a network of 32 bits. -/
theorem stringToIPnet_plain (hslash : '/' ∉ v.toList) {n : IPNet} (h : stringToIPnet net v = .ok n) :
    ∃ a, net.parseAddr v.toList = some a ∧ n = ⟨(a.network 32).1, (a.network 32).2⟩ := by
  have hcidr := stringToIPnet_ok h
  rw [if_neg hslash, NetParsers.parseCIDR, cutSlash_append hslash] at hcidr
  cases ha : net.parseAddr v.toList with
  | none => simp [ha] at hcidr
  | some a =>
    have hbits : 32 ≤ a.bitLen := by unfold Addr.bitLen; split <;> omega
    have hdtoi : dtoi ['3', '2'] = some 32 := by decide
    simp only [ha, hdtoi, if_pos hbits, Option.some.injEq] at hcidr
    exact ⟨a, rfl, hcidr.symm⟩

theorem stringToIPnet_cidr (hslash : '/' ∈ v.toList) {n : IPNet} (h : stringToIPnet net v = .ok n) :
    net.parseCIDR v.toList = some n := by
  have hcidr := stringToIPnet_ok h
  rwa [if_pos hslash] at hcidr

theorem networksOf_none (hreg : reg.lookup v = none) {part : Networks} (h : networksOf net reg v = .ok part) :
    ∃ n, stringToIPnet net v = .ok n ∧ part = [n] := by
  unfold networksOf at h
  rw [hreg] at h
  obtain ⟨n, hn, h⟩ := bind_ok h
  cases h
  exact ⟨n, hn, rfl⟩

/-- A plain IPv6 address lets in everything that agrees with it in 32 bits. -/
theorem networksOf_plain6 {a : Addr} (hplain : Plain6 net reg v a) {part : Networks}
    (h : networksOf net reg v = .ok part) (hip : ip.length = 16) :
    (∃ n ∈ part, n.contains ip = true) ↔ SharesLeading a ip := by
  obtain ⟨hreg, hslash, hparse, h6⟩ := hplain
  obtain ⟨n, hn, rfl⟩ := networksOf_none hreg h
  obtain ⟨a', hparse', rfl⟩ := stringToIPnet_plain hslash hn
  rw [hparse] at hparse'
  cases hparse'
  simp only [List.mem_singleton, exists_eq_left]
  exact a.contains_network6 h6 (k := 4) (n := 12) rfl (by omega) hip

/-- Every other text lets in what it means. -/
theorem networksOf_listed (hother : ∀ a, ¬Plain6 net reg v a) {part : Networks}
    (h : networksOf net reg v = .ok part) (hip : ip.length = 16) :
    (∃ n ∈ part, n.contains ip = true) ↔ Listed net reg v ip := by
  unfold Listed
  cases hreg : reg.lookup v with
  | some group =>
    rw [networksOf, hreg] at h
    cases h
    exact Iff.rfl
  | none =>
    obtain ⟨n, hn, rfl⟩ := networksOf_none hreg h
    simp only [List.mem_singleton, exists_eq_left]
    by_cases hslash : '/' ∈ v.toList
    · simp [hslash, stringToIPnet_cidr hslash hn]
    · obtain ⟨a, ha, rfl⟩ := stringToIPnet_plain hslash hn
      -- a plain address of 128 bits is excluded
      have h4 : a.is4 = true := by
        by_contra h6
        exact hother a ⟨hreg, hslash, ha, by simpa using h6⟩
      simp only [hslash, if_false, ha, Option.some.injEq, exists_eq_left']
      exact a.contains_host4 h4 hip

theorem listed_plain6 {a : Addr} (hplain : Plain6 net reg v a) : Listed net reg v ip ↔ a.as16 = ip := by
  obtain ⟨hreg, hslash, hparse, _⟩ := hplain
  simp [Listed, hreg, hslash, hparse]

end Texts

/-! ## Whole lists -/

section Lists

variable {net : NetParsers} {reg : NetworkReg}

theorem groupToNetwork_ok {src : List String} {nets : Networks} (h : groupToNetwork net reg src = .ok nets) :
    ∃ parts, List.Forall₂ (fun v part => networksOf net reg v = .ok part) src parts ∧ nets = parts.flatten := by
  obtain ⟨parts, hparts, h⟩ := bind_ok h
  cases h
  exact ⟨parts, mapM_ok hparts, rfl⟩

/-- The texts of a group are read as a list without groups is. -/
theorem groupToNetwork_empty : ∀ {s : List String} {nets : Networks}, unmarshalNetworks net s = .ok nets →
    groupToNetwork net ∅ s = .ok nets
  | [], nets, h => by
    cases h
    rfl
  | v :: s, nets, h => by
    rw [unmarshalNetworks, List.mapM_cons] at h
    obtain ⟨n, hn, h⟩ := bind_ok h
    obtain ⟨rest, hrest, h⟩ := bind_ok h
    cases h
    have ih := groupToNetwork_empty hrest
    obtain ⟨parts, hparts, heq⟩ := bind_ok ih
    cases heq
    have hv : networksOf net ∅ v = .ok [n] := by
      rw [networksOf, AList.lookup_empty, hn]
      rfl
    rw [groupToNetwork, List.mapM_cons, hv, hparts]
    rfl

/-- The groups that were read are not empty. -/
def NetworkReg.Populated (reg : NetworkReg) : Prop := ∀ name group, reg.lookup name = some group → group ≠ []

theorem networkReg_populated : ∀ {groups : List NetworkGroups} {reg reg' : NetworkReg},
    (∀ ng ∈ groups, ng.validate = .ok ()) → reg.Populated → networkReg reg groups = .ok reg' → reg'.Populated
  | [], reg, reg', _, hreg, h => by
    cases h
    exact hreg
  | ng :: groups, reg, reg', hvalid, hreg, h => by
    unfold networkReg at h
    split at h
    · cases h
    refine networkReg_populated (fun x hx => hvalid x (List.mem_cons_of_mem _ hx)) (fun name group hlookup => ?_) h
    rcases Tables.lookup_insert_cases hlookup with ⟨-, rfl⟩ | hold
    · rintro hnil
      have hv := hvalid ng List.mem_cons_self
      unfold NetworkGroups.validate at hv
      rw [hnil] at hv
      split at hv <;> cases hv
    · exact hreg name group hold

theorem networksOf_ne_nil (hreg : reg.Populated) {v : String} {part : Networks}
    (h : networksOf net reg v = .ok part) : part ≠ [] := by
  cases hlookup : reg.lookup v with
  | some group =>
    rw [networksOf, hlookup] at h
    cases h
    exact hreg v part hlookup
  | none =>
    obtain ⟨n, _, rfl⟩ := networksOf_none hlookup h
    exact List.cons_ne_nil _ _

/-- Only an empty list has no networks. -/
theorem groupToNetwork_eq_nil_iff (hreg : reg.Populated) {src : List String} {nets : Networks}
    (h : groupToNetwork net reg src = .ok nets) : nets = [] ↔ src = [] := by
  obtain ⟨parts, hparts, rfl⟩ := groupToNetwork_ok h
  cases hparts with
  | nil => simp
  | cons hpart _ => simp [networksOf_ne_nil hreg hpart]

/-- What a text lets in: what it means, or for a plain IPv6 address what agrees with it in 32 bits. -/
theorem networksOf_contains {v : String} {part : Networks} (h : networksOf net reg v = .ok part) {ip : Bytes}
    (hip : ip.length = 16) :
    (∃ n ∈ part, n.contains ip = true) ↔
      (Listed net reg v ip ∧ ∀ a, ¬Plain6 net reg v a) ∨ ∃ a, Plain6 net reg v a ∧ SharesLeading a ip := by
  by_cases hplain : ∃ a, Plain6 net reg v a
  · obtain ⟨a, ha⟩ := hplain
    rw [networksOf_plain6 ha h hip]
    constructor
    · exact fun hshares => .inr ⟨a, ha, hshares⟩
    · rintro (⟨_, hother⟩ | ⟨a', ha', hshares⟩)
      · exact absurd ha (hother a)
      · have hsame : a' = a := Option.some.inj (ha'.2.2.1.symm.trans ha.2.2.1)
        rwa [hsame] at hshares
  · have hother : ∀ a, ¬Plain6 net reg v a := fun a ha => hplain ⟨a, ha⟩
    rw [networksOf_listed hother h hip]
    simp [hother]

/-- What a list lets in: what its other texts mean, and what agrees with a plain IPv6 address of it in
32 bits. -/
theorem exists_contains_iff {ip : Bytes} (hip : ip.length = 16) {src : List String} {parts : List Networks}
    (h : List.Forall₂ (fun v part => networksOf net reg v = .ok part) src parts) :
    (∃ n ∈ parts.flatten, n.contains ip = true) ↔
      (∃ v ∈ src, Listed net reg v ip ∧ ∀ a, ¬Plain6 net reg v a) ∨
      ∃ v ∈ src, ∃ a, Plain6 net reg v a ∧ SharesLeading a ip := by
  rw [← exists_or]
  simp only [← and_or_left]
  induction h with
  | nil => simp
  | cons hpart _ ih =>
    simp only [List.flatten_cons, List.mem_append, or_and_right, exists_or, networksOf_contains hpart hip, ih,
      List.mem_cons, exists_eq_left]

/-- What a list means, by its plain IPv6 addresses and its other texts. -/
theorem exists_listed_iff {src : List String} {ip : Bytes} :
    (∃ v ∈ src, Listed net reg v ip) ↔
      (∃ v ∈ src, Listed net reg v ip ∧ ∀ a, ¬Plain6 net reg v a) ∨
      ∃ v ∈ src, ∃ a, Plain6 net reg v a ∧ a.as16 = ip := by
  constructor
  · rintro ⟨v, hv, hlisted⟩
    by_cases hplain : ∃ a, Plain6 net reg v a
    · obtain ⟨a, ha⟩ := hplain
      exact .inr ⟨v, hv, a, ha, (listed_plain6 ha).1 hlisted⟩
    · exact .inl ⟨v, hv, hlisted, fun a ha => hplain ⟨a, ha⟩⟩
  · rintro (⟨v, hv, hlisted, _⟩ | ⟨v, hv, a, ha, heq⟩)
    · exact ⟨v, hv, hlisted⟩
    · exact ⟨v, hv, (listed_plain6 ha).2 heq⟩

theorem or_iff_or_iff {p q r : Prop} : (p ∨ q ↔ p ∨ r) ↔ p ∨ (q ↔ r) := by
  by_cases hp : p <;> simp [hp]

/-- The decision on an address that parses, for networks read from a list. -/
theorem contains_iff_allowed_iff (hreg : reg.Populated) {src : List String} {nets : Networks}
    (h : groupToNetwork net reg src = .ok nets) {addr : List Char} {a : Addr}
    (ha : net.parseAddr ((net.splitHostPort addr).getD addr) = some a) :
    (src ≠ [] → nets ≠ []) ∧
    ∃ b, nets.contains net addr = some b ∧
      ((b = true ↔ Allowed net reg src a.as16) ↔ Plain6Harmless net reg src a.as16) := by
  have hnil := groupToNetwork_eq_nil_iff hreg h
  refine ⟨mt hnil.1, ?_⟩
  unfold Networks.contains Allowed Plain6Harmless
  by_cases hsrc : src = []
  · rw [if_pos (by rw [hnil.2 hsrc]; rfl)]
    exact ⟨true, rfl, by simp [hsrc]⟩
  · have hne : nets.length ≠ 0 := fun hlength => hsrc (hnil.1 (List.length_eq_zero_iff.1 hlength))
    obtain ⟨parts, hparts, rfl⟩ := groupToNetwork_ok h
    simp only [hne, if_false, ha, hsrc, false_or]
    refine ⟨_, rfl, ?_⟩
    rw [List.any_eq_true, exists_contains_iff a.as16_length hparts, exists_listed_iff]
    exact or_iff_or_iff

end Lists

/-- For every set of groups and every list that is accepted, and for every remote address: the networks let
the address in exactly when the list means it, unless a plain IPv6 address of the list makes a difference;
a list that is not empty never lets in everything. The same holds for the texts of a group. -/
theorem allowed_networks_iff (net : NetParsers) {addr : List Char} {a : Addr}
    (ha : net.parseAddr ((net.splitHostPort addr).getD addr) = some a) :
    (∀ groups reg src nets, (∀ ng ∈ groups, NetworkGroups.validate ng = .ok ()) → networkReg ∅ groups = .ok reg →
      groupToNetwork net reg src = .ok nets →
      (src ≠ [] → nets ≠ []) ∧ ∃ b, nets.contains net addr = some b ∧
        ((b = true ↔ Allowed net reg src a.as16) ↔ Plain6Harmless net reg src a.as16)) ∧
    (∀ s nets, unmarshalNetworks net s = .ok nets →
      (s ≠ [] → nets ≠ []) ∧ ∃ b, nets.contains net addr = some b ∧
        ((b = true ↔ Allowed net ∅ s a.as16) ↔ Plain6Harmless net ∅ s a.as16)) := by
  have hempty : NetworkReg.Populated ∅ := fun name group hlookup => by simp at hlookup
  constructor
  · intro groups reg src nets hvalid hreg h
    exact contains_iff_allowed_iff (networkReg_populated hvalid hempty hreg) h ha
  · intro s nets h
    exact contains_iff_allowed_iff hempty (groupToNetwork_empty h) ha

/-- The IPv4 address of four bytes. -/
def addr4 (a b c d : UInt8) : Addr := ⟨true, [a, b, c, d], rfl⟩

/-- The addresses `2001:db8::1` and `2001:db8:ffff::1`. -/
def docAddr : Addr := ⟨false, [0x20, 0x01, 0x0d, 0xb8, 0, 0, 0, 0, 0, 0, 0, 0, 0, 0, 0, 1], rfl⟩

def otherAddr : Addr := ⟨false, [0x20, 0x01, 0x0d, 0xb8, 0xff, 0xff, 0, 0, 0, 0, 0, 0, 0, 0, 0, 1], rfl⟩

/-- Parsers that read just these addresses, and take every remote address for one without a port. -/
def sampleNet : NetParsers where
  parseAddr s := List.lookup s
    [("10.1.2.3".toList, addr4 10 1 2 3), ("172.16.0.0".toList, addr4 172 16 0 0),
      ("172.31.9.9".toList, addr4 172 31 9 9), ("192.168.0.0".toList, addr4 192 168 0 0),
      ("192.168.7.7".toList, addr4 192 168 7 7), ("2001:db8::1".toList, docAddr),
      ("2001:db8:ffff::1".toList, otherAddr)]
  splitHostPort _ := none

/-- A group of one network. -/
def officeGroup : NetworkGroups := ⟨"office", [⟨[172, 16, 0, 0], [255, 240, 0, 0]⟩]⟩

/-- A group, a network and an address let in their addresses, and no other. -/
theorem allowed_networks_office :
    unmarshalNetworks sampleNet ["172.16.0.0/12"] = .ok officeGroup.networks ∧
    ∃ reg nets, networkReg ∅ [officeGroup] = .ok reg ∧
      groupToNetwork sampleNet reg ["office", "192.168.0.0/16", "10.1.2.3"] = .ok nets ∧
      (∀ addr ∈ ["172.31.9.9", "192.168.7.7", "10.1.2.3"], nets.contains sampleNet addr.toList = some true) ∧
      nets.contains sampleNet "2001:db8::1".toList = some false ∧
      (∀ a ∈ [addr4 172 31 9 9, addr4 192 168 7 7, addr4 10 1 2 3],
        Allowed sampleNet reg ["office", "192.168.0.0/16", "10.1.2.3"] a.as16) ∧
      ¬Allowed sampleNet reg ["office", "192.168.0.0/16", "10.1.2.3"] docAddr.as16 := by
  obtain ⟨reg, hreg, hoffice⟩ : ∃ reg, networkReg ∅ [officeGroup] = .ok reg ∧
      reg.lookup "office" = some officeGroup.networks := ⟨_, rfl, rfl⟩
  obtain ⟨nets, hnets, hin, hout⟩ : ∃ nets,
      groupToNetwork sampleNet reg ["office", "192.168.0.0/16", "10.1.2.3"] = .ok nets ∧
      (∀ addr ∈ ["172.31.9.9", "192.168.7.7", "10.1.2.3"], nets.contains sampleNet addr.toList = some true) ∧
      nets.contains sampleNet "2001:db8::1".toList = some false := by
    cases hreg
    exact ⟨_, rfl, by decide, by decide⟩
  have hnoplain : ∀ v ∈ ["office", "192.168.0.0/16", "10.1.2.3"], ∀ a, ¬Plain6 sampleNet reg v a := by
    intro v hv a ha
    obtain ⟨hlookup, hslash, hparse, h6⟩ := ha
    rcases List.mem_cons.1 hv with rfl | hv
    · cases hoffice.symm.trans hlookup
    rcases List.mem_pair.1 hv with rfl | rfl
    · exact hslash (by decide)
    · cases (show some (addr4 10 1 2 3) = some a from hparse)
      cases h6
  -- the list has no plain IPv6 address that could make a difference
  have hdecided : ∀ {addr : String} {a : Addr} {b : Bool}, sampleNet.parseAddr addr.toList = some a →
      nets.contains sampleNet addr.toList = some b →
      (b = true ↔ Allowed sampleNet reg ["office", "192.168.0.0/16", "10.1.2.3"] a.as16) := by
    intro addr a b ha hb
    obtain ⟨-, b', hb', hiff⟩ := (@allowed_networks_iff sampleNet addr.toList a ha).1 [officeGroup] reg _ nets
      (List.forall_mem_singleton.2 rfl) hreg hnets
    cases hb.symm.trans hb'
    exact hiff.2 (.inr ⟨fun ⟨v, hv, a, ha, _⟩ => absurd ha (hnoplain v hv a),
      fun ⟨v, hv, a, ha, _⟩ => absurd ha (hnoplain v hv a)⟩)
  refine ⟨by decide, reg, nets, hreg, hnets, hin, hout, ?_, fun hallowed => ?_⟩
  · simp only [List.forall_mem_cons] at hin ⊢
    exact ⟨(hdecided rfl hin.1).1 rfl, (hdecided rfl hin.2.1).1 rfl, (hdecided rfl hin.2.2.1).1 rfl,
      List.forall_mem_nil _⟩
  · exact absurd ((hdecided rfl hout).2 hallowed) (by decide)

/-- The list of the one address `2001:db8::1` lets in `2001:db8:ffff::1`, with every parser that reads the
two as they are written. -/
theorem plain6_lets_in_network :
    (sampleNet.parseAddr "2001:db8::1".toList = some docAddr ∧
      sampleNet.parseAddr "2001:db8:ffff::1".toList = some otherAddr) ∧
    ∀ net : NetParsers, net.parseAddr "2001:db8::1".toList = some docAddr →
      net.parseAddr "2001:db8:ffff::1".toList = some otherAddr →
      net.splitHostPort "2001:db8:ffff::1".toList = none →
      ∃ nets, groupToNetwork net ∅ ["2001:db8::1"] = .ok nets ∧
        nets.contains net "2001:db8:ffff::1".toList = some true ∧
        ¬Allowed net ∅ ["2001:db8::1"] otherAddr.as16 := by
  refine ⟨⟨by decide, by decide⟩, fun net hdoc hother hsplit => ?_⟩
  have hslash : '/' ∉ "2001:db8::1".toList := by decide
  -- `/32` is appended to any address without a slash, also to one of 128 bits
  have hcidr : net.parseCIDR ("2001:db8::1".toList ++ ['/', '3', '2']) =
      some ⟨(docAddr.network 32).1, (docAddr.network 32).2⟩ := by
    rw [NetParsers.parseCIDR, cutSlash_append hslash]
    simp only [hdoc, show dtoi ['3', '2'] = some 32 by decide]
    decide
  have hstring : stringToIPnet net "2001:db8::1" = .ok ⟨(docAddr.network 32).1, (docAddr.network 32).2⟩ := by
    rw [stringToIPnet, if_neg (by decide), if_neg hslash]
    simp only [hcidr]
  refine ⟨[⟨(docAddr.network 32).1, (docAddr.network 32).2⟩], ?_, ?_, ?_⟩
  · rw [groupToNetwork, List.mapM_cons, networksOf, AList.lookup_empty, hstring]
    rfl
  · simp only [Networks.contains, List.length_cons, List.length_nil, Nat.reduceAdd, Nat.one_ne_zero, if_false, hsplit,
      Option.getD_none, hother]
    decide
  · rintro (hnil | ⟨v, hv, hlisted⟩)
    · cases hnil
    · cases List.mem_singleton.1 hv
      rw [listed_plain6 ⟨AList.lookup_empty _, hslash, hdoc, rfl⟩] at hlisted
      exact absurd hlisted (by decide)

end Chproxy.Config

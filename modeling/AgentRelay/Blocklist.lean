import AgentRelay.Text

/-! The broker's blocklist: addresses and ranges of addresses that are turned away. An IPv4 address
may arrive as an IPv6 one, mapped into `::ffff:0:0/96`. The parsers of the standard library and the
networks of the network crate come from outside. -/
namespace AgentRelay.Blocklist
open Text

inductive IpAddr
  | v4 (address : BitVec 32)
  | v6 (address : BitVec 128)
  deriving DecidableEq

/-- The networks of the network crate over addresses of this many bits. -/
structure Nets (width : ℕ) where
  Net : Type
  new : BitVec width → ℕ → Option Net
  prefixLen : Net → ℕ
  network : Net → BitVec width
  contains : Net → BitVec width → Bool

/-- The number of addresses of a network. -/
def Nets.size {width : ℕ} (nets : Nets width) (net : nets.Net) : ℕ :=
  2 ^ (width - nets.prefixLen net)

/-- What the crate documents: a prefix has at most as many bits as an address, the address of a
network is the one given with its host bits cleared, and the network contains the addresses that
agree with that one in the bits of the prefix. -/
structure Nets.Documented {width : ℕ} (nets : Nets width) : Prop where
  isSome_new : ∀ address prefixLen, (nets.new address prefixLen).isSome ↔ prefixLen ≤ width
  prefixLen_new : ∀ {address prefixLen net}, nets.new address prefixLen = some net →
    nets.prefixLen net = prefixLen
  network_new : ∀ {address prefixLen net}, nets.new address prefixLen = some net →
    (nets.network net).toNat = address.toNat / nets.size net * nets.size net
  prefixLen_le : ∀ net, nets.prefixLen net ≤ width
  dvd_network : ∀ net, nets.size net ∣ (nets.network net).toNat
  contains_iff : ∀ net address, nets.contains net address = true ↔
    address.toNat / nets.size net = (nets.network net).toNat / nets.size net

inductive IpNet (four : Nets 32) (six : Nets 128)
  | v4 (net : four.Net)
  | v6 (net : six.Net)

section list
variable {four : Nets 32} {six : Nets 128}

def IpNet.contains : IpNet four six → IpAddr → Bool
  | .v4 net, .v4 address => four.contains net address
  | .v6 net, .v6 address => six.contains net address
  | _, _ => false

/-- `Ipv6Addr::to_ipv4_mapped`. -/
def toIpv4Mapped (address : BitVec 128) : Option (BitVec 32) :=
  if address.toNat / 2 ^ 32 = 0xffff then some (BitVec.ofNat 32 address.toNat) else none

def normalizeIp : IpAddr → IpAddr
  | .v6 v6 => match toIpv4Mapped v6 with
    | some v4 => .v4 v4
    | none => .v6 v6
  | .v4 v4 => .v4 v4

def normalizeNet (net : IpNet four six) : IpNet four six :=
  match net with
  | .v6 v6net => match toIpv4Mapped (six.network v6net) with
    | some v4 =>
      if 96 ≤ six.prefixLen v6net then
        match four.new v4 (six.prefixLen v6net - 96) with
        | some v4net => .v4 v4net
        | none => net
      else net
    | none => net
  | .v4 _ => net

section
variable (parseIpNet : String → Option (IpNet four six)) (parseIpAddr : String → Option IpAddr)

def writtenNet (entry : String) : Option (IpNet four six) :=
  let entry := trim entry
  if entry = "" then none
  else if contains entry "/" then parseIpNet entry
  else match parseIpAddr entry with
    | some (.v4 v4) => (four.new v4 32).map .v4
    | some (.v6 v6) => (six.new v6 128).map .v6
    | none => none

def parseBanEntry (entry : String) : Option (IpNet four six) :=
  (writtenNet parseIpNet parseIpAddr entry).map normalizeNet

/-- The networks of the entries that can be parsed; the others are skipped. -/
def loadBannedNets (entries : List String) : List (IpNet four six) :=
  entries.filterMap (parseBanEntry parseIpNet parseIpAddr)

end

def isBanned (nets : List (IpNet four six)) (ip : IpAddr) : Bool :=
  nets.any fun net => net.contains (normalizeIp ip)

/-- The IPv6 form `::ffff:a` of an IPv4 address. -/
def mapped (address : BitVec 32) : BitVec 128 :=
  BitVec.ofNat 128 (0xffff * 2 ^ 32 + address.toNat)

/-- An address and, if it is an IPv4 address in either form, the other form. -/
def spellings : IpAddr → List IpAddr
  | .v4 v4 => [.v4 v4, .v6 (mapped v4)]
  | .v6 v6 => .v6 v6 :: ((toIpv4Mapped v6).map .v4).toList

def IpNet.Covers (net : IpNet four six) (ip : IpAddr) : Prop :=
  ∃ form ∈ spellings ip, net.contains form = true

/-- An IPv6 network with more addresses than there are IPv4 ones. -/
def IpNet.IsBroad : IpNet four six → Prop
  | .v4 _ => False
  | .v6 net => six.prefixLen net < 96

def IpAddr.IsIpv4 (ip : IpAddr) : Prop := ∃ v4, ip = .v4 v4 ∨ ip = .v6 (mapped v4)

end list

section arithmetic
variable {size k : ℕ}

theorem div_eq_of_div_eq {a b : ℕ} (h : a / size = b / size) :
    a / (size * k) = b / (size * k) := by
  rw [← Nat.div_div_eq_div_mul, ← Nat.div_div_eq_div_mul, h]

/-- Below the bits of a block, the first bits of two of its numbers agree if those of their
offsets do. -/
theorem block_div_eq_iff (block r s : ℕ) (hsize : 0 < size) :
    (block * (size * k) + r) / size = (block * (size * k) + s) / size ↔ r / size = s / size := by
  have hblock : ∀ r, (block * (size * k) + r) / size = block * k + r / size := by
    intro r
    rw [show block * (size * k) + r = r + size * (block * k) by ring,
      Nat.add_mul_div_left _ _ hsize, Nat.add_comm]
  rw [hblock, hblock, Nat.add_left_cancel_iff]

end arithmetic

theorem toIpv4Mapped_eq_some {address : BitVec 128} {v4 : BitVec 32} :
    toIpv4Mapped address = some v4 ↔ address = mapped v4 := by
  have hv4 := v4.isLt
  have haddress := address.isLt
  rw [toIpv4Mapped, mapped]
  split_ifs with hblock
  · rw [Option.some.injEq, ← BitVec.toNat_inj, ← BitVec.toNat_inj, BitVec.toNat_ofNat,
      BitVec.toNat_ofNat]
    omega
  · refine iff_of_false (by simp) fun heq => hblock ?_
    rw [heq, BitVec.toNat_ofNat]
    omega

theorem toIpv4Mapped_eq_none {address : BitVec 128} :
    toIpv4Mapped address = none ↔ address.toNat / 2 ^ 32 ≠ 0xffff := by
  rw [toIpv4Mapped]
  by_cases hblock : address.toNat / 2 ^ 32 = 0xffff
  · rw [if_pos hblock]
    exact iff_of_false (Option.some_ne_none _) (not_not_intro hblock)
  · rw [if_neg hblock]
    exact iff_of_true rfl hblock

theorem toNat_mapped (v4 : BitVec 32) : (mapped v4).toNat = 0xffff * 2 ^ 32 + v4.toNat := by
  have := v4.isLt
  rw [mapped, BitVec.toNat_ofNat]
  omega

theorem normalizeIp_unmapped {v6 : BitVec 128} (h : toIpv4Mapped v6 = none) :
    normalizeIp (.v6 v6) = .v6 v6 := by
  rw [normalizeIp, h]

theorem normalizeIp_mapped (v4 : BitVec 32) : normalizeIp (.v6 (mapped v4)) = .v4 v4 := by
  rw [normalizeIp, toIpv4Mapped_eq_some.mpr rfl]

theorem toIpv4Mapped_eq_none_iff {v6 : BitVec 128} :
    toIpv4Mapped v6 = none ↔ ¬(IpAddr.v6 v6).IsIpv4 := by
  rw [Option.eq_none_iff_forall_not_mem]
  simp [IpAddr.IsIpv4, toIpv4Mapped_eq_some]

section networks
variable {four : Nets 32} {six : Nets 128} {net : six.Net}

theorem Nets.size_pos {width : ℕ} (nets : Nets width) (net : nets.Net) : 0 < nets.size net :=
  Nat.two_pow_pos _

theorem block_eq (hsix : six.Documented) (h : 96 ≤ six.prefixLen net) :
    2 ^ 32 = six.size net * 2 ^ (six.prefixLen net - 96) := by
  have := hsix.prefixLen_le net
  rw [Nets.size, ← pow_add]
  congr 1
  omega

theorem block_of_contains (hsix : six.Documented) (h : 96 ≤ six.prefixLen net)
    {address : BitVec 128} (hcontains : six.contains net address = true) :
    address.toNat / 2 ^ 32 = (six.network net).toNat / 2 ^ 32 := by
  rw [block_eq hsix h]
  exact div_eq_of_div_eq ((hsix.contains_iff net address).mp hcontains)

/-- A narrow network of mapped addresses has the mapped addresses that agree with it in their last
four bytes. -/
theorem contains_mapped_iff (hsix : six.Documented) (h : 96 ≤ six.prefixLen net)
    {network : BitVec 32} (hnetwork : six.network net = mapped network) (v4 : BitVec 32) :
    six.contains net (mapped v4) = true ↔
      v4.toNat / six.size net = network.toNat / six.size net := by
  rw [hsix.contains_iff, hnetwork, toNat_mapped, toNat_mapped, block_eq hsix h]
  exact block_div_eq_iff 0xffff _ _ (six.size_pos net)

theorem normalizeNet_unmapped (hnetwork : toIpv4Mapped (six.network net) = none) :
    normalizeNet (.v6 net) = (.v6 net : IpNet four six) := by
  rw [normalizeNet, hnetwork]

theorem normalizeNet_broad (h : six.prefixLen net < 96) :
    normalizeNet (.v6 net) = (.v6 net : IpNet four six) := by
  rw [normalizeNet]
  split
  · rw [if_neg (Nat.not_le.mpr h)]
  · rfl

theorem normalizeNet_mapped (hfour : four.Documented) (hsix : six.Documented)
    (h : 96 ≤ six.prefixLen net) {v4 : BitVec 32} (hnetwork : six.network net = mapped v4) :
    ∃ v4net, normalizeNet (.v6 net) = (.v4 v4net : IpNet four six) ∧
      four.size v4net = six.size net ∧
      (four.network v4net).toNat = v4.toNat / six.size net * six.size net := by
  have hprefix : six.prefixLen net - 96 ≤ 32 := by
    have := hsix.prefixLen_le net
    omega
  obtain ⟨v4net, hnew⟩ := Option.isSome_iff_exists.mp
    ((hfour.isSome_new v4 (six.prefixLen net - 96)).mpr hprefix)
  have hsize : four.size v4net = six.size net := by
    have hbits : 32 - (six.prefixLen net - 96) = 128 - six.prefixLen net := by omega
    rw [Nets.size, Nets.size, hfour.prefixLen_new hnew, hbits]
  refine ⟨v4net, ?_, hsize, hsize ▸ hfour.network_new hnew⟩
  rw [normalizeNet, toIpv4Mapped_eq_some.mpr hnetwork]
  simp only [if_pos h, hnew]

/-- A network as it is kept holds an IPv4 address if it holds one of its forms as it is written,
unless it is broad. -/
theorem contains_v4_iff (hfour : four.Documented) (hsix : six.Documented) (net : IpNet four six)
    (v4 : BitVec 32) :
    (normalizeNet net).contains (.v4 v4) = true ↔
      (net.contains (.v4 v4) = true ∨ net.contains (.v6 (mapped v4)) = true) ∧ ¬net.IsBroad := by
  cases net with
  | v4 net => simp [normalizeNet, IpNet.contains, IpNet.IsBroad]
  | v6 net =>
    rw [IpNet.IsBroad, Nat.not_lt]
    simp only [IpNet.contains, Bool.false_eq_true, false_or]
    by_cases hbroad : six.prefixLen net < 96
    · rw [normalizeNet_broad hbroad]
      exact iff_of_false (by simp) fun h => absurd h.2 (Nat.not_le.mpr hbroad)
    have hnarrow := Nat.not_lt.mp hbroad
    rw [and_iff_left hnarrow]
    cases hnetwork : toIpv4Mapped (six.network net) with
    | none =>
      rw [normalizeNet_unmapped hnetwork]
      refine iff_of_false (by simp) fun hcontains => ?_
      have hblock := block_of_contains hsix hnarrow hcontains
      rw [toIpv4Mapped_eq_none, ← hblock, toNat_mapped] at hnetwork
      have := v4.isLt
      omega
    | some network =>
      rw [toIpv4Mapped_eq_some] at hnetwork
      obtain ⟨v4net, hnet, hsize, hv4net⟩ := normalizeNet_mapped hfour hsix hnarrow hnetwork
      rw [hnet, contains_mapped_iff hsix hnarrow hnetwork]
      refine (hfour.contains_iff v4net v4).trans ?_
      rw [hsize, hv4net, Nat.mul_div_cancel _ (six.size_pos net)]

theorem contains_v6_iff (hfour : four.Documented) (hsix : six.Documented) (net : IpNet four six)
    {v6 : BitVec 128} (h : toIpv4Mapped v6 = none) :
    (normalizeNet net).contains (.v6 v6) = true ↔ net.contains (.v6 v6) = true := by
  cases net with
  | v4 net => rfl
  | v6 net =>
    by_cases hbroad : six.prefixLen net < 96
    · rw [normalizeNet_broad hbroad]
    cases hnetwork : toIpv4Mapped (six.network net) with
    | none => rw [normalizeNet_unmapped hnetwork]
    | some network =>
      have hnarrow := Nat.not_lt.mp hbroad
      rw [toIpv4Mapped_eq_some] at hnetwork
      obtain ⟨v4net, hnet, -⟩ := normalizeNet_mapped hfour hsix hnarrow hnetwork
      rw [hnet]
      refine iff_of_false Bool.false_ne_true fun hcontains => ?_
      -- The network is a block of mapped addresses, and this is not one of them.
      rw [toIpv4Mapped_eq_none, block_of_contains hsix hnarrow hcontains, hnetwork,
        toNat_mapped] at h
      have := network.isLt
      omega

theorem covers_v4 (net : IpNet four six) (v4 : BitVec 32) :
    net.Covers (.v4 v4) ↔ net.contains (.v4 v4) = true ∨ net.contains (.v6 (mapped v4)) = true := by
  simp [IpNet.Covers, spellings]

theorem covers_mapped (net : IpNet four six) (v4 : BitVec 32) :
    net.Covers (.v6 (mapped v4)) ↔ net.Covers (.v4 v4) := by
  have hmapped : toIpv4Mapped (mapped v4) = some v4 := toIpv4Mapped_eq_some.mpr rfl
  rw [covers_v4]
  simp [IpNet.Covers, spellings, hmapped, or_comm]

theorem covers_unmapped (net : IpNet four six) {v6 : BitVec 128} (h : toIpv4Mapped v6 = none) :
    net.Covers (.v6 v6) ↔ net.contains (.v6 v6) = true := by
  simp [IpNet.Covers, spellings, h]

theorem covers_iff (hfour : four.Documented) (hsix : six.Documented) (net : IpNet four six)
    (ip : IpAddr) :
    (normalizeNet net).contains (normalizeIp ip) = true ↔
      net.Covers ip ∧ ¬(net.IsBroad ∧ ip.IsIpv4) := by
  have hv4 : ∀ v4, (normalizeNet net).contains (.v4 v4) = true ↔
      net.Covers (.v4 v4) ∧ ¬net.IsBroad := by
    intro v4
    rw [contains_v4_iff hfour hsix, covers_v4]
  cases ip with
  | v4 v4 =>
    have hip : (IpAddr.v4 v4).IsIpv4 := ⟨v4, .inl rfl⟩
    rw [normalizeIp, hv4, and_iff_left hip]
  | v6 v6 =>
    cases hmapped : toIpv4Mapped v6 with
    | some v4 =>
      rw [toIpv4Mapped_eq_some] at hmapped
      have hip : (IpAddr.v6 v6).IsIpv4 := ⟨v4, .inr (congrArg _ hmapped)⟩
      rw [and_iff_left hip, hmapped, normalizeIp_mapped, hv4, covers_mapped]
    | none =>
      have hip := toIpv4Mapped_eq_none_iff.mp hmapped
      rw [normalizeIp_unmapped hmapped, contains_v6_iff hfour hsix net hmapped,
        covers_unmapped net hmapped,
        and_iff_left fun h => hip h.2]

/-- An address is turned away if the range of an entry has it, an IPv4 address in either form,
unless the range is one of IPv6 addresses wider than the mapped ones and the address is an
IPv4 one. -/
theorem isBanned_iff (hfour : four.Documented) (hsix : six.Documented)
    (parseIpNet : String → Option (IpNet four six)) (parseIpAddr : String → Option IpAddr)
    (entries : List String) (ip : IpAddr) :
    isBanned (loadBannedNets parseIpNet parseIpAddr entries) ip = true ↔
      ∃ entry ∈ entries, ∃ net ∈ writtenNet parseIpNet parseIpAddr entry,
        net.Covers ip ∧ ¬(net.IsBroad ∧ ip.IsIpv4) := by
  rw [isBanned, List.any_eq_true, loadBannedNets]
  simp only [List.mem_filterMap, parseBanEntry, Option.map_eq_some_iff]
  constructor
  · rintro ⟨_, ⟨entry, hentry, net, hnet, rfl⟩, hcontains⟩
    exact ⟨entry, hentry, net, hnet, (covers_iff hfour hsix net ip).mp hcontains⟩
  · rintro ⟨entry, hentry, net, hnet, hcovers⟩
    exact ⟨_, ⟨entry, hentry, net, hnet, rfl⟩, (covers_iff hfour hsix net ip).mpr hcovers⟩

end networks

structure Range (width : ℕ) where
  addr : BitVec width
  prefixLen : ℕ
  prefixLen_le : prefixLen ≤ width

def Range.size {width : ℕ} (net : Range width) : ℕ := 2 ^ (width - net.prefixLen)

/-- Networks as the crate has them. -/
def ranges (width : ℕ) : Nets width where
  Net := Range width
  new addr prefixLen := if h : prefixLen ≤ width then some ⟨addr, prefixLen, h⟩ else none
  prefixLen net := net.prefixLen
  network net := BitVec.ofNat width (net.addr.toNat / net.size * net.size)
  contains net address := address.toNat / net.size = net.addr.toNat / net.size

theorem ranges_documented (width : ℕ) : (ranges width).Documented := by
  have hsize : ∀ net : Range width, 0 < net.size := fun net => Nat.two_pow_pos _
  have hnetwork : ∀ net : Range width, (BitVec.ofNat width
      (net.addr.toNat / net.size * net.size)).toNat = net.addr.toNat / net.size * net.size := by
    intro net
    rw [BitVec.toNat_ofNat]
    exact Nat.mod_eq_of_lt ((Nat.div_mul_le_self _ _).trans_lt net.addr.isLt)
  have hnew : ∀ {address prefixLen} {net : Range width},
      (ranges width).new address prefixLen = some net →
        net.addr = address ∧ net.prefixLen = prefixLen := by
    intro address prefixLen net h
    simp only [ranges] at h
    split_ifs at h
    cases h
    exact ⟨rfl, rfl⟩
  refine ⟨?_, fun h => (hnew h).2, ?_, Range.prefixLen_le, ?_, ?_⟩
  · intro address prefixLen
    simp only [ranges]
    split_ifs with h <;> simp [h]
  · intro address prefixLen net h
    rw [← (hnew h).1]
    exact hnetwork net
  · intro net
    exact (hnetwork net) ▸ Dvd.intro_left _ rfl
  · intro net address
    have hdiv := Nat.mul_div_cancel (net.addr.toNat / net.size) (hsize net)
    rw [← hnetwork net] at hdiv
    exact decide_eq_true_iff.trans (hdiv ▸ Iff.rfl)

/-- How `::ffff:10.0.0.0/104` and `::/0`, the range of all IPv6 addresses, are parsed. -/
def parseRange (text : String) : Option (IpNet (ranges 32) (ranges 128)) :=
  if text = "::/0" then ((ranges 128).new 0 0).map .v6
  else if text = "::ffff:10.0.0.0/104" then ((ranges 128).new (mapped 0x0a000000) 104).map .v6
  else none

theorem writtenNet_range {entry : String} (htrim : trim entry = entry) (hne : entry ≠ "")
    (hslash : contains entry "/" = true) :
    writtenNet parseRange (fun _ => none) entry = parseRange entry := by
  rw [writtenNet, htrim, if_neg hne, if_pos hslash]

/-- A range of mapped addresses turns away an IPv4 address. -/
theorem isBanned_mapped_range :
    isBanned (loadBannedNets parseRange (fun _ => none) ["::ffff:10.0.0.0/104"])
      (.v4 0x0a090807) = true := by
  apply (isBanned_iff (ranges_documented 32) (ranges_documented 128) parseRange (fun _ => none)
    ["::ffff:10.0.0.0/104"] (.v4 0x0a090807)).mpr
  refine ⟨_, List.mem_singleton_self _, .v6 ⟨mapped 0x0a000000, 104, by decide⟩, ?_, ?_, ?_⟩
  · rw [writtenNet_range (by decide) (by decide) (by decide)]
    rfl
  · exact ⟨.v6 (mapped 0x0a090807), by simp [spellings], by decide +kernel⟩
  · simp [IpNet.IsBroad, ranges]

/-- The range of all IPv6 addresses does not turn away `::ffff:1.2.3.4`. -/
theorem mapped_passes_any_ipv6 :
    ¬(isBanned (loadBannedNets parseRange (fun _ => none) ["::/0"])
        (.v6 (mapped 0x01020304)) = true ↔
      ∃ entry ∈ ["::/0"], ∃ net ∈ writtenNet parseRange (fun _ => none) entry,
        net.Covers (.v6 (mapped 0x01020304))) := by
  have hentry : .v6 ⟨0, 0, by decide⟩ ∈ writtenNet parseRange (fun _ => none) "::/0" := by
    rw [writtenNet_range (by decide) (by decide) (by decide)]
    rfl
  have hcovers : (IpNet.v6 ⟨0, 0, by decide⟩ : IpNet (ranges 32) (ranges 128)).Covers
      (.v6 (mapped 0x01020304)) :=
    ⟨.v6 (mapped 0x01020304), List.mem_cons_self, by decide +kernel⟩
  have hpasses : isBanned (loadBannedNets parseRange (fun _ => none) ["::/0"])
      (.v6 (mapped 0x01020304)) = false := by
    decide +kernel
  intro h
  rw [hpasses] at h
  exact Bool.false_ne_true (h.mpr ⟨"::/0", List.mem_singleton_self _, _, hentry, hcovers⟩)

end AgentRelay.Blocklist

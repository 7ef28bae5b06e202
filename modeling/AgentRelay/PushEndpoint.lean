import AgentRelay.PairingDesk

/-! The endpoints a paired device may have its notifications posted to. A URL is parsed by a
library; what the relay checks is the scheme and the host, and what it stores passed the check. -/
namespace AgentRelay.Relay
open Text StepRun

structure Ipv4Addr where
  a : UInt8
  b : UInt8
  c : UInt8
  d : UInt8
  deriving DecidableEq, Repr

namespace Ipv4Addr

def isLoopback (ip : Ipv4Addr) : Bool := ip.a = 127

def isPrivate (ip : Ipv4Addr) : Bool :=
  ip.a = 10 || (ip.a = 172 && 16 ≤ ip.b && ip.b ≤ 31) || (ip.a = 192 && ip.b = 168)

def isLinkLocal (ip : Ipv4Addr) : Bool := ip.a = 169 && ip.b = 254

def isUnspecified (ip : Ipv4Addr) : Bool := ip = ⟨0, 0, 0, 0⟩

/-- An address that no public service has. -/
def isInside (ip : Ipv4Addr) : Bool :=
  ip.isLoopback || ip.isPrivate || ip.isLinkLocal || ip.isUnspecified

def ofSegments (high low : UInt16) : Ipv4Addr :=
  ⟨(high >>> 8).toUInt8, high.toUInt8, (low >>> 8).toUInt8, low.toUInt8⟩

end Ipv4Addr

structure Ipv6Addr where
  s0 : UInt16
  s1 : UInt16
  s2 : UInt16
  s3 : UInt16
  s4 : UInt16
  s5 : UInt16
  s6 : UInt16
  s7 : UInt16
  deriving DecidableEq, Repr

namespace Ipv6Addr

def isLoopback (ip : Ipv6Addr) : Bool := ip = ⟨0, 0, 0, 0, 0, 0, 0, 1⟩

def isUnspecified (ip : Ipv6Addr) : Bool := ip = ⟨0, 0, 0, 0, 0, 0, 0, 0⟩

/-- `fc00::/7`. -/
def isUniqueLocal (ip : Ipv6Addr) : Bool := ip.s0 &&& 0xfe00 = 0xfc00

/-- `fe80::/10`. -/
def isLinkLocal (ip : Ipv6Addr) : Bool := ip.s0 &&& 0xffc0 = 0xfe80

/-- The address embedded in the mapped form `::ffff:a.b.c.d`. -/
def toIpv4Mapped (ip : Ipv6Addr) : Option Ipv4Addr :=
  if ip.s0 = 0 ∧ ip.s1 = 0 ∧ ip.s2 = 0 ∧ ip.s3 = 0 ∧ ip.s4 = 0 ∧ ip.s5 = 0xffff then
    some (.ofSegments ip.s6 ip.s7)
  else none

/-- The address embedded in the compatible form `::a.b.c.d`. -/
def compatible (ip : Ipv6Addr) : Option Ipv4Addr :=
  if ip.s0 = 0 ∧ ip.s1 = 0 ∧ ip.s2 = 0 ∧ ip.s3 = 0 ∧ ip.s4 = 0 ∧ ip.s5 = 0 then
    some (.ofSegments ip.s6 ip.s7)
  else none

def isInside (ip : Ipv6Addr) : Bool :=
  ip.isLoopback || ip.isUnspecified || ip.isUniqueLocal || ip.isLinkLocal

end Ipv6Addr

inductive Host
  | domain (name : String)
  | ipv4 (ip : Ipv4Addr)
  | ipv6 (ip : Ipv6Addr)
  deriving DecidableEq, Repr

structure Url where
  scheme : String
  host : Option Host
  deriving DecidableEq, Repr

/-- `str::ends_with` with a string pattern. -/
def endsWith (s pattern : String) : Bool := decide (pattern.toList <:+ s.toList)

/-- Not a name of this machine or of the local network, as the name is spelled. -/
def publicName (name : String) : Bool :=
  name ≠ "localhost" && !endsWith name ".localhost" && !endsWith name ".local"

def acceptableHost : Option Host → Bool
  | some (.domain name) => publicName (toAsciiLowercase name)
  | some (.ipv4 ip) =>
    !(ip.isLoopback || ip.isPrivate || ip.isLinkLocal || ip.isUnspecified)
  | some (.ipv6 ip) =>
    match ip.toIpv4Mapped with
    | some ip => !(ip.isLoopback || ip.isPrivate || ip.isLinkLocal || ip.isUnspecified)
    | none => !(ip.isLoopback || ip.isUnspecified || ip.isUniqueLocal || ip.isLinkLocal)
  | none => false

def isAcceptablePushEndpoint (parse : String → Option Url) (endpoint : String) : Bool :=
  match parse endpoint with
  | none => false
  | some url => url.scheme = "https" && acceptableHost url.host

def withoutTrailingDot (name : String) : String :=
  if endsWith name "." then String.ofList name.toList.dropLast else name

/-- The host is none that a relay would reach inside its own machine or network. -/
def HostOutside : Host → Prop
  | .domain name => publicName (withoutTrailingDot (toAsciiLowercase name)) = true
  | .ipv4 ip => ip.isInside = false
  | .ipv6 ip => ip.isInside = false ∧
      (∀ embedded, ip.toIpv4Mapped = some embedded → embedded.isInside = false) ∧
      ∀ embedded, ip.compatible = some embedded → embedded.isInside = false

/-- The spellings of an inside host that the check does not see through: a name ended by a dot, and
an address in the compatible form. -/
def HiddenInside : Host → Prop
  | .domain name => endsWith (toAsciiLowercase name) "." = true ∧
      publicName (withoutTrailingDot (toAsciiLowercase name)) = false
  | .ipv4 _ => False
  | .ipv6 ip => ip.isUnspecified = false ∧
      ∃ embedded, ip.compatible = some embedded ∧ embedded.isInside = true

section spellings

theorem endsWith_of_dot {name pattern : String} (hdot : endsWith name "." = true)
    (hpattern : pattern.toList.getLast? ≠ some '.') (hne : pattern.toList ≠ []) :
    endsWith name pattern = false := by
  obtain ⟨init, hinit⟩ : ['.'] <:+ name.toList := by simpa [endsWith] using hdot
  simp only [endsWith, decide_eq_false_iff_not]
  rintro ⟨start, hstart⟩
  have hlast := congrArg List.getLast? (hstart.trans hinit.symm)
  rw [List.getLast?_append_of_ne_nil _ hne, List.getLast?_append_of_ne_nil _ (by simp)] at hlast
  exact hpattern hlast

theorem publicName_of_dot {name : String} (hdot : endsWith name "." = true) :
    publicName name = true := by
  have hlocalhost : name ≠ "localhost" := by
    rintro rfl
    exact absurd hdot (by decide)
  have hunderLocalhost : endsWith name ".localhost" = false :=
    endsWith_of_dot hdot (by decide) (by decide)
  have hunderLocal : endsWith name ".local" = false :=
    endsWith_of_dot hdot (by decide) (by decide)
  simp [publicName, hlocalhost, hunderLocalhost, hunderLocal]

theorem toIpv4Mapped_compatible {ip : Ipv6Addr} {embedded : Ipv4Addr}
    (h : ip.compatible = some embedded) : ip.toIpv4Mapped = none := by
  unfold Ipv6Addr.compatible at h
  unfold Ipv6Addr.toIpv4Mapped
  split_ifs at h with hzero
  rw [if_neg]
  rintro ⟨-, -, -, -, -, hmapped⟩
  rw [hzero.2.2.2.2.2] at hmapped
  exact absurd hmapped (by decide)

theorem isInside_of_mapped {ip : Ipv6Addr} {embedded : Ipv4Addr}
    (h : ip.toIpv4Mapped = some embedded) : ip.isInside = false := by
  unfold Ipv6Addr.toIpv4Mapped at h
  split_ifs at h with hform
  obtain ⟨h0, -, -, -, -, h5⟩ := hform
  have hloopback : ip.isLoopback = false := by
    simp only [Ipv6Addr.isLoopback, decide_eq_false_iff_not]
    rintro rfl
    exact absurd h5 (by decide)
  have hunspecified : ip.isUnspecified = false := by
    simp only [Ipv6Addr.isUnspecified, decide_eq_false_iff_not]
    rintro rfl
    exact absurd h5 (by decide)
  have hunique : ip.isUniqueLocal = false := by
    rw [Ipv6Addr.isUniqueLocal, h0]
    decide
  have hlink : ip.isLinkLocal = false := by
    rw [Ipv6Addr.isLinkLocal, h0]
    decide
  simp [Ipv6Addr.isInside, hloopback, hunspecified, hunique, hlink]

theorem compatible_unspecified {ip : Ipv6Addr} (h : ip.isUnspecified = true) :
    ip.isInside = true := by
  simp [Ipv6Addr.isInside, h]

theorem acceptableHost_iff (host : Host) :
    (acceptableHost (some host) = true → HostOutside host) ↔ ¬HiddenInside host := by
  cases host with
  | domain name =>
    simp only [acceptableHost, HostOutside, HiddenInside]
    by_cases hdot : endsWith (toAsciiLowercase name) "." = true
    · simp [publicName_of_dot hdot, hdot]
    · simp [withoutTrailingDot, hdot]
  | ipv4 ip =>
    simp [acceptableHost, HostOutside, HiddenInside, Ipv4Addr.isInside]
  | ipv6 ip =>
    simp only [acceptableHost, HostOutside, HiddenInside]
    cases hmapped : ip.toIpv4Mapped with
    | some embedded =>
      have hcompatible : ip.compatible = none := by
        by_contra hsome
        obtain ⟨other, hother⟩ := Option.ne_none_iff_exists'.mp hsome
        rw [toIpv4Mapped_compatible hother] at hmapped
        cases hmapped
      simp [isInside_of_mapped hmapped, hcompatible, Ipv4Addr.isInside]
    | none =>
      have haccepts : (!(ip.isLoopback || ip.isUnspecified || ip.isUniqueLocal || ip.isLinkLocal)) =
          !ip.isInside := rfl
      simp only [haccepts, Bool.not_eq_true', reduceCtorEq, false_implies, implies_true, true_and]
      constructor
      · rintro hsafe ⟨hspecified, embedded, hcompatible, hinside⟩
        by_cases hip : ip.isInside = false
        · rw [(hsafe hip).2 embedded hcompatible] at hinside
          cases hinside
        · -- Of the compatible forms the check rejects `::` and `::1`; the second embeds `0.0.0.1`.
          unfold Ipv6Addr.compatible at hcompatible
          split_ifs at hcompatible with hzero
          obtain rfl := Option.some.inj hcompatible
          have hloopback : ip.isLoopback = true := by
            have hunique : ip.isUniqueLocal = false := by
              rw [Ipv6Addr.isUniqueLocal, hzero.1]
              decide
            have hlink : ip.isLinkLocal = false := by
              rw [Ipv6Addr.isLinkLocal, hzero.1]
              decide
            simpa [Ipv6Addr.isInside, hspecified, hunique, hlink] using hip
          have hone : ip = ⟨0, 0, 0, 0, 0, 0, 0, 1⟩ := by
            simpa [Ipv6Addr.isLoopback] using hloopback
          rw [hone] at hinside
          exact absurd hinside (by decide)
      · intro hhidden hip
        refine ⟨hip, fun embedded hcompatible => ?_⟩
        by_contra hinside
        refine hhidden ⟨?_, embedded, hcompatible, by simpa using hinside⟩
        by_contra hunspecified
        rw [compatible_unspecified (by simpa using hunspecified)] at hip
        cases hip

end spellings

theorem isAcceptablePushEndpoint_iff (parse : String → Option Url) (endpoint : String) :
    isAcceptablePushEndpoint parse endpoint = true ↔ ∃ url host, parse endpoint = some url ∧
      url.scheme = "https" ∧ url.host = some host ∧ acceptableHost (some host) = true := by
  unfold isAcceptablePushEndpoint
  constructor
  · intro haccepts
    cases hparse : parse endpoint with
    | none =>
      rw [hparse] at haccepts
      cases haccepts
    | some url =>
      rw [hparse] at haccepts
      obtain ⟨hscheme, hok⟩ : url.scheme = "https" ∧ acceptableHost url.host = true := by
        simpa using haccepts
      cases hhost : url.host with
      | none =>
        rw [hhost] at hok
        cases hok
      | some host => exact ⟨url, host, rfl, hscheme, hhost, hhost ▸ hok⟩
  · rintro ⟨url, host, hparse, hscheme, hhost, hok⟩
    rw [hparse]
    simp [hscheme, hhost, hok]

def PointsOutside (parse : String → Option Url) (endpoint : String) : Prop :=
  isAcceptablePushEndpoint parse endpoint = true →
    ∃ url host, parse endpoint = some url ∧ url.scheme = "https" ∧ url.host = some host ∧
      HostOutside host

/-- An accepted endpoint points outside exactly if its host is no inside host spelled with a
trailing dot or in the compatible form. -/
theorem pointsOutside_iff (parse : String → Option Url) (endpoint : String) :
    PointsOutside parse endpoint ↔
      ∀ url host, parse endpoint = some url → url.scheme = "https" → url.host = some host →
        ¬HiddenInside host := by
  have haccept := isAcceptablePushEndpoint_iff parse endpoint
  constructor
  · intro hpoints url host hurl hscheme hhost
    refine (acceptableHost_iff host).mp fun haccepts => ?_
    obtain ⟨url', host', hurl', -, hhost', houtside⟩ :=
      hpoints (haccept.mpr ⟨url, host, hurl, hscheme, hhost, haccepts⟩)
    obtain rfl := Option.some.inj (hurl.symm.trans hurl')
    obtain rfl := Option.some.inj (hhost.symm.trans hhost')
    exact houtside
  · intro hplain haccepts
    obtain ⟨url, host, hurl, hscheme, hhost, hok⟩ := haccept.mp haccepts
    exact ⟨url, host, hurl, hscheme, hhost,
      (acceptableHost_iff host).mpr (hplain url host hurl hscheme hhost) hok⟩

def sampleUrl (endpoint : String) : Option Url :=
  if endpoint = "https://localhost./push" then some ⟨"https", some (.domain "localhost.")⟩
  else if endpoint = "https://[::127.0.0.1]/push" then
    some ⟨"https", some (.ipv6 ⟨0, 0, 0, 0, 0, 0, 0x7f00, 1⟩)⟩
  else none

/-- `localhost.` and `::127.0.0.1` are this machine, and are accepted. -/
theorem localhost_dot_accepted :
    isAcceptablePushEndpoint sampleUrl "https://localhost./push" = true ∧
      ¬PointsOutside sampleUrl "https://localhost./push" ∧
      isAcceptablePushEndpoint sampleUrl "https://[::127.0.0.1]/push" = true ∧
      ¬PointsOutside sampleUrl "https://[::127.0.0.1]/push" := by
  refine ⟨by decide, fun hpoints => ?_, by decide, fun hpoints => ?_⟩
  · obtain ⟨url, host, hurl, -, hhost, houtside⟩ := hpoints (by decide)
    obtain rfl := Option.some.inj hurl
    obtain rfl := Option.some.inj hhost
    have hname : publicName (withoutTrailingDot (toAsciiLowercase "localhost.")) = true := houtside
    exact absurd hname (by decide)
  · obtain ⟨url, host, hurl, -, hhost, houtside⟩ := hpoints (by decide)
    obtain rfl := Option.some.inj hurl
    obtain rfl := Option.some.inj hhost
    have hcompatible : ∀ embedded, (⟨0, 0, 0, 0, 0, 0, 0x7f00, 1⟩ : Ipv6Addr).compatible =
        some embedded → embedded.isInside = false := houtside.2.2
    exact absurd (hcompatible ⟨127, 0, 0, 1⟩ (by decide)) (by decide)

section subscriptions
variable (parse : String → Option Url)

structure PushSubscriptionInput where
  deviceId : Option String
  endpoint : String
  p256dh : String
  auth : String
  deriving DecidableEq, Repr

namespace PairingDesk

def registerPushSubscription (desk : PairingDesk) (now : Nat) (input : PushSubscriptionInput) :
    PairingDesk × Except String Unit :=
  match input.deviceId with
  | none => (desk, .error "push subscription is missing a device id")
  | some deviceId =>
    if ¬desk.surfaces.pairedDevices.contains deviceId then (desk, .error "device is not paired")
    else if input.endpoint = "" ∨ input.p256dh = "" ∨ input.auth = "" then
      (desk, .error "push subscription is incomplete")
    else if ¬isAcceptablePushEndpoint parse input.endpoint then
      (desk, .error "push endpoint must be a public https URL")
    else
      let stored := desk.pushSubscriptions[deviceId]?.getD []
      if stored.any fun s => s.endpoint = input.endpoint ∧ s.p256dh = input.p256dh ∧
          s.auth = input.auth then (desk, .ok ())
      else
        let subscription : PushSubscription :=
          ⟨input.endpoint, input.p256dh, input.auth, deviceId, now⟩
        let kept := stored.filter (·.endpoint ≠ input.endpoint) ++ [subscription]
        ({ desk with pushSubscriptions := desk.pushSubscriptions.insert deviceId kept }, .ok ())

def unregisterPushSubscription (desk : PairingDesk) (deviceId endpoint : String) : PairingDesk :=
  match desk.pushSubscriptions[deviceId]? with
  | none => desk
  | some stored =>
    let kept := stored.filter (·.endpoint ≠ endpoint)
    { desk with pushSubscriptions :=
        if kept = [] then desk.pushSubscriptions.erase deviceId
        else desk.pushSubscriptions.insert deviceId kept }

end PairingDesk

end subscriptions

end AgentRelay.Relay

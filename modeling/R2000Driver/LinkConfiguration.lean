import R2000Driver.DataLinkBuilder

/-!
# Configurations of the asynchronous build

The map of a handle builder represents what its setters ask for
(`represents_build`), one step for each setter. From that follows when the
parameters can be read: the watchdog is off or has a timeout that fits into an
`int`, and a UDP link has a port and an address. The timeout of a watchdog that
is off is not read at all, so it is exact only where it is the default. These
are the configurations that the asynchronous build is safe for
(`async_safe_iff`).
-/

namespace R2000Driver.DataLinkBuilder
open Parameters Commands Http ReadWriteBuilder HandleBuilder TextStream

theorem stoi_nat (n : ℕ) :
    stoi (toString n) = if n ≤ 2147483647 then .ok (n : ℤ) else .error .outOfRange := by
  obtain ⟨c, rest, htext⟩ := List.exists_cons_of_ne_nil (repr_ne_nil n)
  have hdigits : ∀ d ∈ n.repr.toList, d.isDigit = true := fun _ => digit_of_mem_repr
  have hc : c.isDigit = true := hdigits c (htext ▸ List.mem_cons_self)
  have hsign : withoutSign n.repr.toList = n.repr.toList := by
    rw [htext, withoutSign_of_digit hc]
  have hstart : n.repr.toList.dropWhile isSpace = n.repr.toList :=
    dropWhile_of_withoutSign (hsign.trans htext) hc
  have htake : n.repr.toList.takeWhile Char.isDigit = n.repr.toList :=
    List.takeWhile_eq_self_iff.mpr hdigits
  have hminus : n.repr.toList.head? ≠ some '-' := by
    rw [htext]
    intro h
    cases Option.some.inj h
    cases hc
  have hnonempty : n.repr.toList.isEmpty = false := by simp
  rw [Nat.toString_eq_repr]
  simp only [stoi, hstart, hsign, htake, if_neg hminus, hnonempty, digitsValue_repr,
    Bool.false_eq_true, ↓reduceIte]
  by_cases hn : n ≤ 2147483647
  · rw [if_neg (by omega), if_neg (by omega), if_pos hn]
  · rw [if_pos (by omega), if_neg hn]

structure Represents (m : ParametersMap) (s : HandleSettings) : Prop where
  watchdog : m.lookup "watchdog" = some (if s.watchdog then boolParameterTrue else boolParameterFalse)
  timeout : m.lookup "watchdogtimeout" = s.timeout.map fun timeout => toString timeout.toNat
  port : m.lookup "port" = s.port.map fun port => toString port.toNat
  hostname : m.lookup "address" = s.hostname

theorem Represents.insert_other {m : ParametersMap} {s : HandleSettings} (h : Represents m s)
    {name : String} (value : String)
    (hname : name ∉ ["watchdog", "watchdogtimeout", "port", "address"]) :
    Represents (AList.insert name value m) s := by
  simp only [List.mem_cons, List.not_mem_nil, or_false, not_or] at hname
  obtain ⟨hwatchdog, htimeout, hport, hhostname⟩ := hname
  refine ⟨?_, ?_, ?_, ?_⟩
  · rw [AList.lookup_insert_ne (Ne.symm hwatchdog), h.watchdog]
  · rw [AList.lookup_insert_ne (Ne.symm htimeout), h.timeout]
  · rw [AList.lookup_insert_ne (Ne.symm hport), h.port]
  · rw [AList.lookup_insert_ne (Ne.symm hhostname), h.hostname]

class LawfulHandleBuilder (Call : Type) [ReadWriteBuilder Call] [HandleBuilder Call] : Prop where
  represents_constructor : Represents (build ([] : List Call)) HandleSettings.default
  represents_step : ∀ (m : ParametersMap) (s : HandleSettings) (c : Call), Represents m s →
    Represents (AList.insert (key c) (value c) m) (apply s c)

theorem represents_build {Call : Type} [ReadWriteBuilder Call] [HandleBuilder Call]
    [LawfulHandleBuilder Call] (calls : List Call) : Represents (build calls) (settings calls) := by
  induction calls using List.reverseRecOn with
  | nil => exact LawfulHandleBuilder.represents_constructor
  | append_singleton calls c ih =>
    have hbuild : build (calls ++ [c]) = AList.insert (key c) (value c) (build calls) := by
      rw [build, ← List.append_assoc, LastWrite.writeAll_concat]
      rfl
    have hsettings : settings (calls ++ [c]) = apply (settings calls) c := by
      rw [settings, List.foldl_append]
      rfl
    rw [hbuild, hsettings]
    exact LawfulHandleBuilder.represents_step _ _ c ih

theorem represents_watchdog {m : ParametersMap} {s : HandleSettings} (h : Represents m s)
    (enabled : Bool) : Represents
      (AList.insert "watchdog" (if enabled then boolParameterTrue else boolParameterFalse) m)
      { s with watchdog := enabled } := by
  refine ⟨AList.lookup_insert m, ?_, ?_, ?_⟩
  · rw [AList.lookup_insert_ne (by decide), h.timeout]
  · rw [AList.lookup_insert_ne (by decide), h.port]
  · rw [AList.lookup_insert_ne (by decide), h.hostname]

theorem represents_timeout {m : ParametersMap} {s : HandleSettings} (h : Represents m s)
    (timeout : UInt32) : Represents (AList.insert "watchdogtimeout" (toString timeout.toNat) m)
      { s with timeout := some timeout } := by
  refine ⟨?_, AList.lookup_insert m, ?_, ?_⟩
  · rw [AList.lookup_insert_ne (by decide), h.watchdog]
  · rw [AList.lookup_insert_ne (by decide), h.port]
  · rw [AList.lookup_insert_ne (by decide), h.hostname]

theorem represents_port {m : ParametersMap} {s : HandleSettings} (h : Represents m s)
    (port : UInt16) : Represents (AList.insert "port" (toString port.toNat) m)
      { s with port := some port } := by
  refine ⟨?_, ?_, AList.lookup_insert m, ?_⟩
  · rw [AList.lookup_insert_ne (by decide), h.watchdog]
  · rw [AList.lookup_insert_ne (by decide), h.timeout]
  · rw [AList.lookup_insert_ne (by decide), h.hostname]

theorem represents_hostname {m : ParametersMap} {s : HandleSettings} (h : Represents m s)
    (hostname : String) : Represents (AList.insert "address" hostname m)
      { s with hostname := some hostname } := by
  refine ⟨?_, ?_, ?_, AList.lookup_insert m⟩
  · rw [AList.lookup_insert_ne (by decide), h.watchdog]
  · rw [AList.lookup_insert_ne (by decide), h.timeout]
  · rw [AList.lookup_insert_ne (by decide), h.port]

theorem represents_default : Represents (AList.insert "watchdog" boolParameterFalse ∅)
    HandleSettings.default := ⟨by decide, by decide, by decide, by decide⟩

instance : LawfulHandleBuilder HandleTcp where
  represents_constructor := represents_default
  represents_step m s c h := by
    cases c with
    | withWatchdog => exact represents_watchdog h true
    | withoutWatchdog => exact represents_watchdog h false
    | withWatchdogTimeout timeout => exact represents_timeout h timeout
    | _ => exact h.insert_other _ (by simp [key])

instance : LawfulHandleBuilder HandleUdp where
  represents_constructor := represents_default
  represents_step m s c h := by
    cases c with
    | withHostname hostname => exact represents_hostname h hostname
    | withPort port => exact represents_port h port
    | withWatchdog => exact represents_watchdog h true
    | withoutWatchdog => exact represents_watchdog h false
    | withWatchdogTimeout timeout => exact represents_timeout h timeout
    | _ => exact h.insert_other _ (by simp [key])

theorem exists_bind_ok_iff {A B : Type} {x : Building A} {f : A → Building B} :
    (∃ value, x.bind f = .ok value) ↔ ∃ a, x = .ok a ∧ ∃ value, f a = .ok value := by
  cases x <;> simp [Except.bind]

theorem extractWatchdogParameters_eq {m : ParametersMap} {s : HandleSettings}
    (h : Represents m s) : extractWatchdogParameters m =
      if s.watchdog = false then .ok ⟨false, 60000⟩
      else match s.timeout with
        | none => .error (.builderException "Key not found -> ")
        | some timeout =>
          if timeout.toNat ≤ 2147483647 then .ok ⟨true, timeout.toNat⟩ else .error .outOfRange := by
  have htrue : (boolParameterTrue == boolParameterTrue) = true := by decide
  have hfalse : (boolParameterFalse == boolParameterTrue) = false := by decide
  unfold extractWatchdogParameters findValueOrDefault findValueOrThrow
  rw [h.watchdog, h.timeout]
  cases s.watchdog with
  | false => simp [hfalse, bind, Except.bind, pure, Except.pure]
  | true =>
    cases s.timeout with
    | none => simp [bind, Except.bind]
    | some timeout =>
      simp only [htrue, Option.getD_some, ↓reduceIte, Option.map_some, Bool.true_eq_false, bind,
        Except.bind, pure, Except.pure, stoi_nat]
      by_cases hle : timeout.toNat ≤ 2147483647
      · rw [if_pos hle, if_pos hle]
      · rw [if_neg hle, if_neg hle]

theorem extractWatchdogParameters_ok_iff {m : ParametersMap} {s : HandleSettings}
    (h : Represents m s) : (∃ watchdog, extractWatchdogParameters m = .ok watchdog) ↔
      (s.watchdog = true → ∃ timeout, s.timeout = some timeout ∧ timeout.toNat ≤ 2147483647) := by
  rw [extractWatchdogParameters_eq h]
  cases s.watchdog with
  | false => simp
  | true =>
    cases s.timeout with
    | none => simp
    | some timeout =>
      by_cases hle : timeout.toNat ≤ 2147483647 <;> simp [hle]

section
variable {Address : Type} [HostAddress Address]

theorem port_ok {m : ParametersMap} {s : HandleSettings} (h : Represents m s) (text : String) :
    (∃ port, (findValueOrThrow m "port" text).bind stoi = .ok port) ↔ s.port.isSome = true := by
  unfold findValueOrThrow
  rw [h.port]
  cases s.port with
  | none => simp [Except.bind]
  | some port =>
    have hle : port.toNat ≤ 2147483647 := by
      have := port.toNat_lt
      omega
    have hport := stoi_nat port.toNat
    rw [if_pos hle] at hport
    exact iff_of_true ⟨_, hport⟩ rfl

theorem address_ok {m : ParametersMap} {s : HandleSettings} (h : Represents m s) (text : String) :
    (∃ address : Address, (findValueOrThrow m "address" text).bind addressFromString = .ok address) ↔
      ∃ hostname, s.hostname = some hostname ∧
        (HostAddress.fromString hostname : Option Address).isSome = true := by
  unfold findValueOrThrow
  rw [h.hostname]
  cases s.hostname with
  | none => simp [Except.bind]
  | some hostname =>
    simp only [Except.bind, addressFromString, Option.some.injEq, exists_eq_left']
    cases (HostAddress.fromString hostname : Option Address) <;> simp

def Requirements.settings : Requirements → HandleSettings
  | tcp handleBuilder => DataLinkBuilder.settings handleBuilder
  | udp handleBuilder => DataLinkBuilder.settings handleBuilder

def Requirements.parameters : Requirements → ParametersMap
  | tcp handleBuilder => Parameters.build handleBuilder
  | udp handleBuilder => Parameters.build handleBuilder

theorem Requirements.represents (requirements : Requirements) :
    Represents requirements.parameters requirements.settings := by
  cases requirements with
  | tcp handleBuilder => exact represents_build handleBuilder
  | udp handleBuilder => exact represents_build handleBuilder

def HandleSettings.WatchdogReadable (s : HandleSettings) : Prop :=
  s.watchdog = true → ∃ timeout, s.timeout = some timeout ∧ timeout.toNat ≤ 2147483647

def Requirements.Readable (Address : Type) [HostAddress Address] (requirements : Requirements) :
    Prop :=
  requirements.settings.WatchdogReadable ∧ match requirements with
    | tcp _ => True
    | udp _ => requirements.settings.port.isSome = true ∧
      ∃ hostname, requirements.settings.hostname = some hostname ∧
        (HostAddress.fromString hostname : Option Address).isSome = true

def HandleSettings.TimeoutDefault (s : HandleSettings) : Prop :=
  s.watchdog = false → ∀ timeout, s.timeout = some timeout → timeout = 60000

/-- The configurations that the builder reads without a loss. -/
def Requirements.ReadExactly (Address : Type) [HostAddress Address] (requirements : Requirements) :
    Prop :=
  requirements.Readable Address ∧ requirements.settings.TimeoutDefault

theorem tcp_ok_iff (handleBuilder : List HandleTcp) :
    (∃ values, extractTcpDataLinkParameters handleBuilder = .ok values) ↔
      (settings handleBuilder).WatchdogReadable := by
  rw [HandleSettings.WatchdogReadable,
    ← extractWatchdogParameters_ok_iff (represents_build handleBuilder)]
  apply exists_bind_ok_iff.trans
  simp [pure, Except.pure]

theorem udp_ok_iff (handleBuilder : List HandleUdp) :
    (∃ values : List HandleUdp × WatchdogConfiguration × Address × UInt32,
        extractUdpDataLinkParameters handleBuilder = .ok values) ↔
      (settings handleBuilder).WatchdogReadable ∧ (settings handleBuilder).port.isSome = true ∧
        ∃ hostname, (settings handleBuilder).hostname = some hostname ∧
          (HostAddress.fromString hostname : Option Address).isSome = true := by
  have h := represents_build handleBuilder
  rw [HandleSettings.WatchdogReadable, ← extractWatchdogParameters_ok_iff h,
    ← port_ok h "Could not find the port parameter.",
    ← address_ok h "Could not find the address parameter."]
  apply exists_bind_ok_iff.trans
  simp [bind, exists_bind_ok_iff, pure, Except.pure]

theorem Noexcept.of_ne_terminated_iff {R : Type} (x : Building R) :
    Noexcept.of x ≠ .terminated ↔ ∃ value, x = .ok value := by
  cases x <;> simp [Noexcept.of]

variable {Tree : Type} [ChildTree Tree]

/-- The asynchronous form survives, reports what the synchronous form rejects, and the timeout that
was set is the one that is extracted. -/
structure AsyncSafe (device : Device Address Tree) (requirements : Requirements) : Prop where
  survives : asyncConstructDataLink device requirements ≠ .terminated
  reported : ∀ e, constructDataLink device requirements = .error e → e.OfConfiguration →
    ∃ outcome, asyncConstructDataLink device requirements = .returned outcome ∧
      ∀ link, outcome ≠ .ok (.success, link)
  exactTimeout : ∀ timeout, requirements.settings.timeout = some timeout →
    extractWatchdogParameters requirements.parameters =
      .ok ⟨requirements.settings.watchdog, timeout.toNat⟩

theorem submitted_ok_iff (device : Device Address Tree) (requirements : Requirements) :
    (∃ outcome, submitted device requirements = .ok outcome) ↔ requirements.Readable Address := by
  cases requirements with
  | tcp handleBuilder =>
    apply exists_bind_ok_iff.trans
    rw [Requirements.Readable, Requirements.settings, ← tcp_ok_iff]
    simp [pure, Except.pure]
  | udp handleBuilder =>
    apply exists_bind_ok_iff.trans
    rw [Requirements.Readable, Requirements.settings, ← udp_ok_iff]
    simp [pure, Except.pure]

theorem not_ofConfiguration_of_command {A B : Type} {x : Throwing A} {f : A → B}
    {e : BuildException} (he : (do return f (← x.mapError BuildException.command)) = .error e) :
    ¬ e.OfConfiguration := by
  cases x with
  | error e' =>
    cases he
    exact id
  | ok a => cases he

theorem constructDataLink_throws {device : Device Address Tree} {requirements : Requirements}
    (h : requirements.Readable Address) {e : BuildException}
    (he : constructDataLink device requirements = .error e) : ¬ e.OfConfiguration := by
  cases requirements with
  | tcp handleBuilder =>
    obtain ⟨⟨builder, watchdog⟩, hvalues⟩ := (tcp_ok_iff handleBuilder).mpr h.1
    rw [constructDataLink, hvalues] at he
    exact not_ofConfiguration_of_command he
  | udp handleBuilder =>
    obtain ⟨⟨builder, watchdog, address, port⟩, hvalues⟩ := (udp_ok_iff handleBuilder).mpr h
    rw [constructDataLink, hvalues] at he
    exact not_ofConfiguration_of_command he

theorem exactTimeout_iff {requirements : Requirements}
    (h : requirements.settings.WatchdogReadable) :
    (∀ timeout, requirements.settings.timeout = some timeout →
      extractWatchdogParameters requirements.parameters =
        .ok ⟨requirements.settings.watchdog, timeout.toNat⟩) ↔
      requirements.settings.TimeoutDefault := by
  rw [HandleSettings.TimeoutDefault, extractWatchdogParameters_eq requirements.represents]
  cases hwatchdog : requirements.settings.watchdog with
  | true =>
    refine iff_of_true (fun timeout htimeout => ?_) nofun
    obtain ⟨timeout', htimeout', hle⟩ := h hwatchdog
    cases Option.some.inj (htimeout.symm.trans htimeout')
    rw [htimeout]
    exact if_pos hle
  | false =>
    have hexact : ∀ timeout : UInt32,
        (Except.ok ⟨false, 60000⟩ : Building WatchdogConfiguration) = .ok ⟨false, timeout.toNat⟩ ↔
          timeout = 60000 := by
      intro timeout
      rw [Except.ok.injEq, WatchdogConfiguration.mk.injEq, ← UInt32.toNat_inj]
      simp only [true_and]
      exact Iff.intro (fun heq => (Int.ofNat_inj.mp heq).symm) fun heq => by rw [heq]; rfl
    simp only [↓reduceIte, hexact, true_imp_iff]

/-- The asynchronous build is safe exactly for the configurations that are read without a loss. -/
theorem async_safe_iff (device : Device Address Tree) (requirements : Requirements) :
    AsyncSafe device requirements ↔ requirements.ReadExactly Address := by
  constructor
  · intro h
    have hreadable : requirements.Readable Address := (submitted_ok_iff device requirements).mp
      ((Noexcept.of_ne_terminated_iff _).mp h.survives)
    exact ⟨hreadable, (exactTimeout_iff hreadable.1).mp h.exactTimeout⟩
  · rintro ⟨h, hdefault⟩
    refine ⟨?_, ?_, (exactTimeout_iff h.1).mpr hdefault⟩
    · exact (Noexcept.of_ne_terminated_iff _).mpr ((submitted_ok_iff device requirements).mpr h)
    · intro e he hconfiguration
      exact absurd hconfiguration (constructDataLink_throws h he)

end

structure Ipv4 where
  octets : List UInt8
  deriving DecidableEq, Repr

instance : HostAddress Ipv4 where
  fromString text := if text = "192.168.1.50" then some ⟨[192, 168, 1, 50]⟩ else none

def unreachableDevice : Device Ipv4 JsonTree := ⟨⟨[192, 168, 1, 10]⟩, fun _ => .error .systemError, true⟩

theorem configuration_terminates :
    constructDataLink unreachableDevice (.tcp [.withWatchdog]) =
        .error (.builderException "Key not found -> ") ∧
      asyncConstructDataLink unreachableDevice (.tcp [.withWatchdog]) = .terminated ∧
      asyncConstructDataLink unreachableDevice
        (.tcp [.withWatchdog, .withWatchdogTimeout 3000000000]) = .terminated ∧
      asyncConstructDataLink unreachableDevice
        (.udp [.withPort 6464, .withHostname "receiver.local"]) = .terminated ∧
      extractWatchdogParameters
        (Requirements.tcp [.withoutWatchdog, .withWatchdogTimeout 5000]).parameters =
          .ok ⟨false, 60000⟩ ∧
      ¬ AsyncSafe unreachableDevice (.tcp [.withWatchdog]) := by
  have hterminated : asyncConstructDataLink unreachableDevice (.tcp [.withWatchdog]) = .terminated := by
    rfl
  refine ⟨by rfl, hterminated, by rfl, by rfl, by rfl, ?_⟩
  intro h
  exact h.survives hterminated

end R2000Driver.DataLinkBuilder

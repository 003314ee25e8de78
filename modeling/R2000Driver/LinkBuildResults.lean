import R2000Driver.ExecutionModes
import R2000Driver.LinkConfiguration

/-!
# What the builds of data links return

A build delivers a link exactly when the builder can be read and the device
answers the request with a handle (`link_built_iff`); the link then has the
address, the port and the watchdog that the setters asked for, and the device
was told the same port and watchdog. The asynchronous form delivers what the
synchronous one returns, and `FAILED` in place of an exception
(`async_build_eq`).
-/

namespace R2000Driver.Commands
open Http

section
variable {Tree R : Type} [ChildTree Tree] {onComplete : DeviceAnswer Tree → Throwing R} {failed : R}

theorem modesOf_delivers_iff (hfailed : onComplete (.ofResult .failed) = .ok failed) {value : R}
    (hvalue : value ≠ failed) (reply : Reply Tree) :
    ((modesOf onComplete reply).execute = .ok value ↔
        ∃ answer, reply = .ok answer ∧ onComplete answer = .ok value) ∧
      ((modesOf onComplete reply).callback = .ok value ↔
        ∃ answer, reply = .ok answer ∧ onComplete answer = .ok value) := by
  have hne : ¬ (Except.ok failed : Throwing R) = .ok value := fun h => hvalue (Except.ok.inj h).symm
  cases reply with
  | error e =>
    cases e <;> simp [modesOf, sendHttpCommand, asyncSendHttpCommand, hfailed, Except.bind, hne]
  | ok answer =>
    cases hanswer : onComplete answer with
    | error e =>
      simp [modesOf, sendHttpCommand, asyncSendHttpCommand, hfailed, hanswer, Except.bind, hne]
    | ok result => simp [modesOf, sendHttpCommand, asyncSendHttpCommand, hanswer, Except.bind]

theorem modesOf_callback_eq (hfailed : onComplete (.ofResult .failed) = .ok failed)
    (reply : Reply Tree) : (modesOf onComplete reply).callback =
      .ok ((modesOf onComplete reply).execute.toOption.getD failed) := by
  cases reply with
  | error e =>
    cases e <;>
      simp [modesOf, sendHttpCommand, asyncSendHttpCommand, hfailed, Except.bind, Except.toOption]
  | ok answer =>
    cases hanswer : onComplete answer with
    | error e =>
      simp [modesOf, sendHttpCommand, asyncSendHttpCommand, hfailed, hanswer, Except.bind,
        Except.toOption]
    | ok result =>
      simp [modesOf, sendHttpCommand, asyncSendHttpCommand, hanswer, Except.bind, Except.toOption]

end

section
variable {Tree : Type} [ChildTree Tree]
open PropertyTree

theorem RequestTcpHandle.onComplete_success_iff (answer : DeviceAnswer Tree) (port : ℤ)
    (handle : String) : onComplete answer = .ok (.success, port, handle) ↔
      answer.requestResult = .success ∧ getOptionalInt answer.propertyTree "port" = some port ∧
        getOptionalString answer.propertyTree "handle" = some handle := by
  unfold onComplete
  by_cases hsuccess : answer.requestResult = .success
  · rw [if_neg (not_not.mpr hsuccess), hsuccess]
    unfold tcpHandleInfoFromPropertyTree getInt getString
    cases getOptionalInt answer.propertyTree "port" <;>
      cases getOptionalString answer.propertyTree "handle" <;>
      simp [bind, Except.bind, pure, Except.pure]
  · rw [if_pos hsuccess]
    simp [hsuccess]

theorem RequestUdpHandle.onComplete_success_iff (answer : DeviceAnswer Tree) (handle : String) :
    onComplete answer = .ok (.success, handle) ↔ answer.requestResult = .success ∧
      getOptionalString answer.propertyTree "handle" = some handle := by
  unfold onComplete
  by_cases hsuccess : answer.requestResult = .success
  · rw [if_neg (not_not.mpr hsuccess), hsuccess]
    unfold udpHandleInfoFromPropertyTree getString
    cases getOptionalString answer.propertyTree "handle" <;>
      simp [bind, Except.bind, pure, Except.pure]
  · rw [if_pos hsuccess]
    simp [hsuccess]

theorem RequestTcpHandle.onComplete_failed :
    onComplete (.ofResult .failed : DeviceAnswer Tree) = .ok (.failed, 0, "") := rfl

theorem RequestUdpHandle.onComplete_failed :
    onComplete (.ofResult .failed : DeviceAnswer Tree) = .ok (.failed, "") := rfl

def RequestTcpHandle.Answers (reply : Reply Tree) (port : ℤ) (handle : String) : Prop :=
  ∃ tree, reply.Succeeds tree ∧ getOptionalInt tree "port" = some port ∧
    getOptionalString tree "handle" = some handle

def RequestUdpHandle.Answers (reply : Reply Tree) (handle : String) : Prop :=
  ∃ tree, reply.Succeeds tree ∧ getOptionalString tree "handle" = some handle

theorem RequestTcpHandle.delivers_iff (reply : Reply Tree) (port : ℤ) (handle : String) :
    ((modes reply).execute = .ok (.success, port, handle) ↔ Answers reply port handle) ∧
      ((modes reply).callback = .ok (.success, port, handle) ↔ Answers reply port handle) := by
  have hanswers : (∃ answer, reply = .ok answer ∧ onComplete answer = .ok (.success, port, handle)) ↔
      Answers reply port handle := by
    constructor
    · rintro ⟨⟨result, tree⟩, hreply, hanswer⟩
      obtain ⟨rfl, hentries⟩ := (onComplete_success_iff _ _ _).mp hanswer
      exact ⟨tree, hreply, hentries⟩
    · rintro ⟨tree, hreply, hentries⟩
      exact ⟨_, hreply, (onComplete_success_iff _ _ _).mpr ⟨rfl, hentries⟩⟩
  rw [← hanswers]
  exact modesOf_delivers_iff onComplete_failed (by simp) reply

theorem RequestUdpHandle.delivers_iff (reply : Reply Tree) (handle : String) :
    ((modes reply).execute = .ok (.success, handle) ↔ Answers reply handle) ∧
      ((modes reply).callback = .ok (.success, handle) ↔ Answers reply handle) := by
  have hanswers : (∃ answer, reply = .ok answer ∧ onComplete answer = .ok (.success, handle)) ↔
      Answers reply handle := by
    constructor
    · rintro ⟨⟨result, tree⟩, hreply, hanswer⟩
      obtain ⟨rfl, hentry⟩ := (onComplete_success_iff _ _).mp hanswer
      exact ⟨tree, hreply, hentry⟩
    · rintro ⟨tree, hreply, hentry⟩
      exact ⟨_, hreply, (onComplete_success_iff _ _).mpr ⟨rfl, hentry⟩⟩
  rw [← hanswers]
  exact modesOf_delivers_iff onComplete_failed (by simp) reply

theorem RequestTcpHandle.callback_eq (reply : Reply Tree) : (modes reply).callback =
    .ok ((modes reply).execute.toOption.getD (.failed, 0, "")) :=
  modesOf_callback_eq onComplete_failed reply

theorem RequestUdpHandle.callback_eq (reply : Reply Tree) : (modes reply).callback =
    .ok ((modes reply).execute.toOption.getD (.failed, "")) :=
  modesOf_callback_eq onComplete_failed reply

end

end R2000Driver.Commands

namespace R2000Driver.DataLinkBuilder
open Parameters Commands Http PropertyTree

def HandleSettings.watchdogConfiguration (s : HandleSettings) : WatchdogConfiguration :=
  ⟨s.watchdog, if s.watchdog then (s.timeout.map fun timeout => (timeout.toNat : ℤ)).getD 60000
    else 60000⟩

theorem extractWatchdogParameters_of_readable {m : ParametersMap} {s : HandleSettings}
    (h : Represents m s) (hreadable : s.WatchdogReadable) :
    extractWatchdogParameters m = .ok s.watchdogConfiguration := by
  rw [extractWatchdogParameters_eq h, HandleSettings.watchdogConfiguration]
  cases hwatchdog : s.watchdog with
  | false => rfl
  | true =>
    obtain ⟨timeout, htimeout, hle⟩ := hreadable hwatchdog
    rw [htimeout]
    exact if_pos hle

theorem toUInt16_ofInt (port : UInt16) : (UInt32.ofInt (port.toNat : ℤ)).toUInt16 = port := by
  have hlt := port.toNat_lt
  have hmod : ((port.toNat : ℤ) % 2 ^ 32).toNat = port.toNat := by omega
  rw [UInt32.ofInt, hmod, UInt32.ofNat_uInt16ToNat, UInt16.toUInt16_toUInt32]

section
variable {Address : Type} [HostAddress Address]

theorem extractTcp_of_readable {handleBuilder : List HandleTcp}
    (h : (settings handleBuilder).WatchdogReadable) : extractTcpDataLinkParameters handleBuilder =
      .ok (handleBuilder, (settings handleBuilder).watchdogConfiguration) := by
  rw [extractTcpDataLinkParameters,
    extractWatchdogParameters_of_readable (represents_build handleBuilder) h]
  rfl

theorem extractUdp_of_readable {handleBuilder : List HandleUdp} {port : UInt16} {hostname : String}
    {address : Address} (h : (settings handleBuilder).WatchdogReadable)
    (hport : (settings handleBuilder).port = some port)
    (hhostname : (settings handleBuilder).hostname = some hostname)
    (haddress : HostAddress.fromString hostname = some address) :
    extractUdpDataLinkParameters handleBuilder = .ok (handleBuilder,
      (settings handleBuilder).watchdogConfiguration, address, UInt32.ofInt port.toNat) := by
  have hrepresents := represents_build handleBuilder
  have hle : port.toNat ≤ 2147483647 := by
    have := port.toNat_lt
    omega
  have hstoi := stoi_nat port.toNat
  rw [if_pos hle] at hstoi
  have hfoundPort : findValueOrThrow (Parameters.build handleBuilder) "port"
      "Could not find the port parameter." = .ok (toString port.toNat) := by
    rw [findValueOrThrow, hrepresents.port, hport]
    rfl
  have hfoundAddress : findValueOrThrow (Parameters.build handleBuilder) "address"
      "Could not find the address parameter." = .ok hostname := by
    rw [findValueOrThrow, hrepresents.hostname, hhostname]
  have hparsed : (addressFromString hostname : Building Address) = .ok address := by
    rw [addressFromString, haddress]
  simp only [extractUdpDataLinkParameters, extractWatchdogParameters_of_readable hrepresents h,
    hfoundPort, hfoundAddress, hparsed, hstoi, bind, Except.bind, pure, Except.pure]

variable {Tree : Type} [ChildTree Tree]

/-- The links that the setters, the device and its answer determine. -/
inductive Builds (device : Device Address Tree) : Requirements → DeviceHandle Address → Prop
  | tcp {handleBuilder port value} : (settings handleBuilder).WatchdogReadable →
      RequestTcpHandle.Answers (device.reply (Parameters.build handleBuilder)) port value →
      Builds device (.tcp handleBuilder) ⟨value, device.hostname, UInt16.ofInt port,
        (settings handleBuilder).watchdogConfiguration⟩
  | udp {handleBuilder hostname address port value} :
      (settings handleBuilder).WatchdogReadable → (settings handleBuilder).port = some port →
      (settings handleBuilder).hostname = some hostname →
      HostAddress.fromString hostname = some address →
      RequestUdpHandle.Answers (device.reply (Parameters.build handleBuilder)) value →
      Builds device (.udp handleBuilder) ⟨value, address, port,
        (settings handleBuilder).watchdogConfiguration⟩

omit [HostAddress Address] in
theorem tcpBuildResult_eq_iff {address : Address} {watchdog : WatchdogConfiguration}
    {commandResult : RequestResult × ℤ × String} {handle : DeviceHandle Address} :
    tcpBuildResult address watchdog commandResult = (.success, some handle) ↔
      ∃ port value, commandResult = (.success, port, value) ∧
        handle = ⟨value, address, UInt16.ofInt port, watchdog⟩ := by
  obtain ⟨result, port, value⟩ := commandResult
  unfold tcpBuildResult
  by_cases hsuccess : result = .success
  · simp [hsuccess, eq_comm]
  · simp [hsuccess]

omit [HostAddress Address] in
theorem udpBuildResult_eq_iff {address : Address} {port : UInt32} {watchdog : WatchdogConfiguration}
    {commandResult : RequestResult × String} {handle : DeviceHandle Address} :
    udpBuildResult address port watchdog commandResult = (.success, some handle) ↔
      ∃ value, commandResult = (.success, value) ∧
        handle = ⟨value, address, port.toUInt16, watchdog⟩ := by
  obtain ⟨result, value⟩ := commandResult
  unfold udpBuildResult
  by_cases hsuccess : result = .success
  · simp [hsuccess, eq_comm]
  · simp [hsuccess]

theorem bind_eq_ok_iff {A B : Type} {x : Building A} {f : A → Building B} {b : B} :
    x.bind f = .ok b ↔ ∃ a, x = .ok a ∧ f a = .ok b := by
  cases x <;> simp [Except.bind]

theorem mapError_bind_eq_iff {A B : Type} {x : Throwing A} {f : A → B} {b : B} :
    (x.mapError BuildException.command).bind (fun a => .ok (f a)) = .ok b ↔
      ∃ a, x = .ok a ∧ f a = b := by
  cases x <;> simp [Except.mapError, Except.bind]

theorem map_eq_ok_iff {A B : Type} {x : Throwing A} {f : A → B} {b : B} :
    x.map f = .ok b ↔ ∃ a, x = .ok a ∧ f a = b := by
  cases x <;> simp [Except.map]

theorem extractTcp_ok {handleBuilder builder : List HandleTcp} {watchdog : WatchdogConfiguration}
    (h : extractTcpDataLinkParameters handleBuilder = .ok (builder, watchdog)) :
    (settings handleBuilder).WatchdogReadable ∧ builder = handleBuilder ∧
      watchdog = (settings handleBuilder).watchdogConfiguration := by
  have hreadable := (tcp_ok_iff handleBuilder).mp ⟨_, h⟩
  cases h.symm.trans (extractTcp_of_readable hreadable)
  exact ⟨hreadable, rfl, rfl⟩

theorem extractUdp_ok {handleBuilder builder : List HandleUdp} {watchdog : WatchdogConfiguration}
    {address : Address} {port : UInt32}
    (h : extractUdpDataLinkParameters handleBuilder = .ok (builder, watchdog, address, port)) :
    (settings handleBuilder).WatchdogReadable ∧ builder = handleBuilder ∧
      watchdog = (settings handleBuilder).watchdogConfiguration ∧
      (settings handleBuilder).port = some port.toUInt16 ∧
      ∃ hostname, (settings handleBuilder).hostname = some hostname ∧
        HostAddress.fromString hostname = some address := by
  obtain ⟨hreadable, hport, hostname, hhostname, haddress⟩ := (udp_ok_iff handleBuilder).mp ⟨_, h⟩
  obtain ⟨port', hport'⟩ := Option.isSome_iff_exists.mp hport
  obtain ⟨address', haddress'⟩ := Option.isSome_iff_exists.mp haddress
  cases h.symm.trans (extractUdp_of_readable hreadable hport' hhostname haddress')
  rw [toUInt16_ofInt]
  exact ⟨hreadable, rfl, rfl, hport', hostname, hhostname, haddress'⟩

theorem exists_tcp_iff {device : Device Address Tree} {handleBuilder : List HandleTcp}
    {handle : DeviceHandle Address}
    {result : List HandleTcp → Throwing (RequestResult × ℤ × String)}
    (hresult : ∀ builder port value, result builder = .ok (.success, port, value) ↔
      RequestTcpHandle.Answers (device.reply (Parameters.build builder)) port value) :
    (∃ values : List HandleTcp × WatchdogConfiguration,
        extractTcpDataLinkParameters handleBuilder = .ok values ∧ ∃ a, result values.1 = .ok a ∧
          tcpBuildResult device.hostname values.2 a = (.success, some handle)) ↔
      Builds device (.tcp handleBuilder) handle := by
  constructor
  · rintro ⟨⟨builder, watchdog⟩, hvalues, a, ha, hbuild⟩
    obtain ⟨hreadable, rfl, rfl⟩ := extractTcp_ok hvalues
    obtain ⟨port, value, rfl, rfl⟩ := tcpBuildResult_eq_iff.mp hbuild
    exact .tcp hreadable ((hresult _ port value).mp ha)
  · rintro ⟨hreadable, hanswers⟩
    exact ⟨_, extractTcp_of_readable hreadable, _, (hresult _ _ _).mpr hanswers,
      tcpBuildResult_eq_iff.mpr ⟨_, _, rfl, rfl⟩⟩

theorem exists_udp_iff {device : Device Address Tree} {handleBuilder : List HandleUdp}
    {handle : DeviceHandle Address} {result : List HandleUdp → Throwing (RequestResult × String)}
    (hresult : ∀ builder value, result builder = .ok (.success, value) ↔
      RequestUdpHandle.Answers (device.reply (Parameters.build builder)) value) :
    (∃ values : List HandleUdp × WatchdogConfiguration × Address × UInt32,
        extractUdpDataLinkParameters handleBuilder = .ok values ∧ ∃ a, result values.1 = .ok a ∧
          udpBuildResult values.2.2.1 values.2.2.2 values.2.1 a = (.success, some handle)) ↔
      Builds device (.udp handleBuilder) handle := by
  constructor
  · rintro ⟨⟨builder, watchdog, address, port⟩, hvalues, a, ha, hbuild⟩
    obtain ⟨hreadable, rfl, rfl, hport, hostname, hhostname, haddress⟩ := extractUdp_ok hvalues
    obtain ⟨value, rfl, rfl⟩ := udpBuildResult_eq_iff.mp hbuild
    exact .udp hreadable hport hhostname haddress ((hresult _ value).mp ha)
  · intro h
    cases h with
    | udp hreadable hport hhostname haddress hanswers =>
      refine ⟨_, extractUdp_of_readable hreadable hport hhostname haddress, _,
        (hresult _ _).mpr hanswers, udpBuildResult_eq_iff.mpr ⟨_, rfl, ?_⟩⟩
      rw [toUInt16_ofInt]

theorem constructDataLink_eq_iff (device : Device Address Tree) (requirements : Requirements)
    (handle : DeviceHandle Address) :
    constructDataLink device requirements = .ok (.success, some handle) ↔
      Builds device requirements handle := by
  cases requirements with
  | tcp handleBuilder =>
    apply bind_eq_ok_iff.trans
    simp only [bind, pure, Except.pure, mapError_bind_eq_iff]
    exact exists_tcp_iff fun builder port value => (RequestTcpHandle.delivers_iff _ port value).1
  | udp handleBuilder =>
    apply bind_eq_ok_iff.trans
    simp only [bind, pure, Except.pure, mapError_bind_eq_iff]
    exact exists_udp_iff fun builder value => (RequestUdpHandle.delivers_iff _ value).1

theorem returned_eq_iff {R : Type} {x : Building R} {value : R} :
    Noexcept.of x = .returned value ↔ x = .ok value := by
  cases x <;> simp [Noexcept.of]

theorem asyncConstructDataLink_eq_iff (device : Device Address Tree) (requirements : Requirements)
    (handle : DeviceHandle Address) :
    asyncConstructDataLink device requirements = .returned (.ok (.success, some handle)) ↔
      device.accepts = true ∧ Builds device requirements handle := by
  rw [asyncConstructDataLink, returned_eq_iff]
  cases haccepts : device.accepts with
  | false =>
    cases requirements with
    | tcp handleBuilder =>
      apply bind_eq_ok_iff.trans
      simp [pure, Except.pure, haccepts]
    | udp handleBuilder =>
      apply bind_eq_ok_iff.trans
      simp [pure, Except.pure, haccepts]
  | true =>
    rw [eq_self, true_and]
    cases requirements with
    | tcp handleBuilder =>
      apply bind_eq_ok_iff.trans
      simp only [pure, Except.pure, haccepts, ↓reduceIte, Except.ok.injEq, map_eq_ok_iff]
      exact exists_tcp_iff fun builder port value => (RequestTcpHandle.delivers_iff _ port value).2
    | udp handleBuilder =>
      apply bind_eq_ok_iff.trans
      simp only [pure, Except.pure, haccepts, ↓reduceIte, Except.ok.injEq, map_eq_ok_iff]
      exact exists_udp_iff fun builder value => (RequestUdpHandle.delivers_iff _ value).2

/-- Both builds deliver exactly the links that the setters, the device and its answer determine; the
asynchronous one needs a device that accepts the command. -/
theorem link_built_iff (device : Device Address Tree) (requirements : Requirements)
    (handle : DeviceHandle Address) :
    (constructDataLink device requirements = .ok (.success, some handle) ↔
        Builds device requirements handle) ∧
      (asyncConstructDataLink device requirements = .returned (.ok (.success, some handle)) ↔
        device.accepts = true ∧ Builds device requirements handle) :=
  ⟨constructDataLink_eq_iff device requirements handle,
    asyncConstructDataLink_eq_iff device requirements handle⟩

omit [HostAddress Address] in
theorem delivered_eq {A : Type} {x y : Throwing A} {f : A → BuildResult Address} {failed : A}
    (hfailed : f failed = (.failed, none)) (hy : y = .ok (x.toOption.getD failed)) :
    y.map f = .ok (((x.mapError BuildException.command).bind fun a => Except.ok (f a)).toOption.getD
      (.failed, none)) := by
  rw [hy]
  cases x <;> simp [Except.map, Except.mapError, Except.bind, Except.toOption, hfailed]

/-- The asynchronous build of a configuration that can be read delivers what the synchronous one
returns, and `FAILED` for its exceptions and where the device does not accept the command. -/
theorem async_build_eq (device : Device Address Tree) {requirements : Requirements}
    (h : requirements.Readable Address) : asyncConstructDataLink device requirements =
      .returned (.ok (if device.accepts = true then
        (constructDataLink device requirements).toOption.getD (.failed, none) else (.failed, none))) := by
  cases requirements with
  | tcp handleBuilder =>
    obtain ⟨⟨builder, watchdog⟩, hvalues⟩ := (tcp_ok_iff handleBuilder).mpr h.1
    rw [asyncConstructDataLink, submitted, constructDataLink, hvalues]
    cases haccepts : device.accepts with
    | false => simp [Noexcept.of, bind, Except.bind, pure, Except.pure]
    | true =>
      have hresult := delivered_eq (f := tcpBuildResult device.hostname watchdog) rfl
        (RequestTcpHandle.callback_eq (device.reply (Parameters.build builder)))
      simp only [Noexcept.of, bind, pure, Except.pure, ↓reduceIte]
      exact congrArg Noexcept.returned hresult
  | udp handleBuilder =>
    obtain ⟨⟨builder, watchdog, address, port⟩, hvalues⟩ := (udp_ok_iff handleBuilder).mpr h
    rw [asyncConstructDataLink, submitted, constructDataLink, hvalues]
    cases haccepts : device.accepts with
    | false => simp [Noexcept.of, bind, Except.bind, pure, Except.pure]
    | true =>
      have hresult := delivered_eq (f := udpBuildResult address port watchdog) rfl
        (RequestUdpHandle.callback_eq (device.reply (Parameters.build builder)))
      simp only [Noexcept.of, bind, pure, Except.pure, ↓reduceIte]
      exact congrArg Noexcept.returned hresult

end

def reachableDevice : Device Ipv4 JsonTree :=
  ⟨⟨[192, 168, 1, 10]⟩, fun _ => .ok ⟨.success, JsonTree.tcpHandle⟩, true⟩

def watchedReceiver : Requirements :=
  .udp [.withPort 6464, .withHostname "192.168.1.50", .withWatchdog, .withWatchdogTimeout 5000]

theorem async_build_eq_watchedReceiver :
    asyncConstructDataLink reachableDevice watchedReceiver = .returned (.ok
      ((constructDataLink reachableDevice watchedReceiver).toOption.getD (.failed, none))) :=
  async_build_eq reachableDevice
    ⟨fun _ => ⟨5000, rfl, by decide⟩, rfl, "192.168.1.50", rfl, rfl⟩

end R2000Driver.DataLinkBuilder

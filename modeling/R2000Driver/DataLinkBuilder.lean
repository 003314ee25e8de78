import R2000Driver.Commands
import R2000Driver.ReadWriteBuilders
import R2000Driver.TextStream

/-!
# Building data links

`DataLinkBuilder` takes the parameters of a link out of the map of its handle
builder, requests the handle from the device, and makes the link. Both forms
of `constructDataLink` read the parameters with the same throwing helpers
before they submit the command; the asynchronous one is `noexcept`, so an
exception of a helper ends the process.

`HandleSettings` is what a sequence of setter calls asks for, without the map.
-/

namespace R2000Driver.DataLinkBuilder
open Parameters Commands Http

inductive BuildException
  | builderException (what : String)
  | invalidArgument
  | outOfRange
  | invalidAddress
  | command (e : StdException)
  deriving DecidableEq, Repr

abbrev Building := Except BuildException

def BuildException.OfConfiguration : BuildException → Prop
  | command _ => False
  | _ => True

/-- A `noexcept` function returns, or the process is terminated. -/
inductive Noexcept (R : Type)
  | terminated
  | returned (value : R)
  deriving DecidableEq, Repr

def Noexcept.of {R : Type} : Building R → Noexcept R
  | .error _ => terminated
  | .ok value => returned value

/-- `std::stoi`: blanks, a sign, and digits of an `int`. -/
def stoi (text : String) : Building ℤ :=
  let start := text.toList.dropWhile TextStream.isSpace
  let digits := (TextStream.withoutSign start).takeWhile Char.isDigit
  let value : ℤ :=
    if start.head? = some '-' then -TextStream.digitsValue digits else TextStream.digitsValue digits
  if digits.isEmpty then .error .invalidArgument
  else if value > 2147483647 then .error .outOfRange
  else if value < -2147483648 then .error .outOfRange
  else .ok value

def findValueOrThrow (map : ParametersMap) (key throwMessage : String) : Building String :=
  match map.lookup key with
  | none => .error (.builderException ("Key not found -> " ++ throwMessage))
  | some value => .ok value

def findValueOrDefault (map : ParametersMap) (key defaultValue : String) : String :=
  (map.lookup key).getD defaultValue

structure WatchdogConfiguration where
  enabled : Bool
  timeout : ℤ
  deriving DecidableEq, Repr

def extractWatchdogParameters (map : ParametersMap) : Building WatchdogConfiguration := do
  let watchdogEnabled := findValueOrDefault map "watchdog" boolParameterFalse == boolParameterTrue
  let watchdogTimeout ← if watchdogEnabled then
      (findValueOrThrow map "watchdogtimeout" "").bind stoi
    else .ok 60000
  return ⟨watchdogEnabled, watchdogTimeout⟩

class HostAddress (Address : Type) where
  fromString : String → Option Address

section
variable {Address : Type} [HostAddress Address]

def addressFromString (text : String) : Building Address :=
  match HostAddress.fromString text with
  | none => .error .invalidAddress
  | some address => .ok address

def extractTcpDataLinkParameters (handleBuilder : List HandleTcp) :
    Building (List HandleTcp × WatchdogConfiguration) := do
  let handleParameters := Parameters.build handleBuilder
  let watchdog ← extractWatchdogParameters handleParameters
  return (handleBuilder, watchdog)

def extractUdpDataLinkParameters (handleBuilder : List HandleUdp) :
    Building (List HandleUdp × WatchdogConfiguration × Address × UInt32) := do
  let handleParameters := Parameters.build handleBuilder
  let watchdog ← extractWatchdogParameters handleParameters
  let port ← (findValueOrThrow handleParameters "port" "Could not find the port parameter.").bind stoi
  let address ← (findValueOrThrow handleParameters "address"
    "Could not find the address parameter.").bind addressFromString
  return (handleBuilder, watchdog, address, UInt32.ofInt port)

structure DeviceHandle (Address : Type) where
  value : String
  address : Address
  port : UInt16
  watchdog : WatchdogConfiguration
  deriving DecidableEq, Repr

abbrev BuildResult (Address : Type) := RequestResult × Option (DeviceHandle Address)

/-- The device: what it replies to a request of a handle, and whether it accepts a command. -/
structure Device (Address Tree : Type) where
  hostname : Address
  reply : ParametersMap → Reply Tree
  accepts : Bool

inductive Requirements
  | tcp (handleBuilder : List HandleTcp)
  | udp (handleBuilder : List HandleUdp)
  deriving DecidableEq, Repr

variable {Tree : Type} [ChildTree Tree]

def tcpBuildResult (address : Address) (watchdog : WatchdogConfiguration)
    (commandResult : RequestResult × ℤ × String) : BuildResult Address :=
  if commandResult.1 ≠ .success then (commandResult.1, none)
  else (.success, some ⟨commandResult.2.2, address, UInt16.ofInt commandResult.2.1, watchdog⟩)

def udpBuildResult (address : Address) (port : UInt32) (watchdog : WatchdogConfiguration)
    (commandResult : RequestResult × String) : BuildResult Address :=
  if commandResult.1 ≠ .success then (commandResult.1, none)
  else (.success, some ⟨commandResult.2, address, port.toUInt16, watchdog⟩)

def constructDataLink (device : Device Address Tree) :
    Requirements → Building (BuildResult Address)
  | .tcp handleBuilder => do
    let (builder, watchdog) ← extractTcpDataLinkParameters handleBuilder
    let modes := RequestTcpHandle.modes (device.reply (Parameters.build builder))
    let result ← modes.execute.mapError .command
    return tcpBuildResult device.hostname watchdog result
  | .udp handleBuilder => do
    let (builder, watchdog, address, port) ← extractUdpDataLinkParameters handleBuilder
    let modes := RequestUdpHandle.modes (device.reply (Parameters.build builder))
    let result ← modes.execute.mapError .command
    return udpBuildResult address port watchdog result

def submitted (device : Device Address Tree) :
    Requirements → Building (Throwing (BuildResult Address))
  | .tcp handleBuilder => do
    let (builder, watchdog) ← extractTcpDataLinkParameters handleBuilder
    let modes := RequestTcpHandle.modes (device.reply (Parameters.build builder))
    return if device.accepts then
        modes.callback.map (tcpBuildResult device.hostname watchdog)
      else .ok (.failed, none)
  | .udp handleBuilder => do
    let (builder, watchdog, address, port) ← extractUdpDataLinkParameters handleBuilder
    let modes := RequestUdpHandle.modes (device.reply (Parameters.build builder))
    return if device.accepts then modes.callback.map (udpBuildResult address port watchdog)
      else .ok (.failed, none)

def asyncConstructDataLink (device : Device Address Tree) (requirements : Requirements) :
    Noexcept (Throwing (BuildResult Address)) :=
  Noexcept.of (submitted device requirements)

end

structure HandleSettings where
  watchdog : Bool
  timeout : Option UInt32
  port : Option UInt16
  hostname : Option String
  deriving DecidableEq, Repr

def HandleSettings.default : HandleSettings := ⟨false, none, none, none⟩

class HandleBuilder (Call : Type) [ReadWriteBuilder Call] where
  apply : HandleSettings → Call → HandleSettings

instance : HandleBuilder HandleTcp where
  apply s
    | .withWatchdog => { s with watchdog := true }
    | .withoutWatchdog => { s with watchdog := false }
    | .withWatchdogTimeout timeout => { s with timeout := some timeout }
    | _ => s

instance : HandleBuilder HandleUdp where
  apply s
    | .withHostname hostname => { s with hostname := some hostname }
    | .withPort port => { s with port := some port }
    | .withWatchdog => { s with watchdog := true }
    | .withoutWatchdog => { s with watchdog := false }
    | .withWatchdogTimeout timeout => { s with timeout := some timeout }
    | _ => s

def settings {Call : Type} [ReadWriteBuilder Call] [HandleBuilder Call] (calls : List Call) :
    HandleSettings :=
  calls.foldl HandleBuilder.apply HandleSettings.default

end R2000Driver.DataLinkBuilder

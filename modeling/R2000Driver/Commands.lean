import Mathlib.Algebra.Group.Nat.Defs
import R2000Driver.HttpGet
import R2000Driver.ParametersMap

/-!
# The execution modes of the commands

A command with a synchronous form can be executed in three ways: `execute`
returns the result, `asyncExecute` returns a future, and `asyncExecute` calls
back. All three read the same reply of the device, which is what `HttpGet` makes
of it: an answer or an exception. The transports treat exceptions differently.
`sendHttpCommand` catches `std::system_error` only; the connection handler of
the asynchronous commands catches every exception, also one thrown by the
completion callback, and then calls the callback with `FAILED`.
-/

namespace R2000Driver.Commands
open Http Parameters

inductive StdException
  | systemError
  | invalidArgument
  | outOfRange
  | propertyTree
  deriving DecidableEq, Repr

abbrev Throwing := Except StdException

/-- What `HttpGet` makes of the reply of the device. -/
abbrev Reply (Tree : Type) := Throwing (DeviceAnswer Tree)

def Reply.received {Tree : Type} [PropertyTree Tree] (socket : Socket) (requestPath : List Char) :
    Reply Tree :=
  (httpGet socket requestPath).mapError fun _ => .propertyTree

class ChildTree (Tree : Type) extends PropertyTree Tree where
  getChildOptional : Tree → String → Option Tree
  children : Tree → List (String × Tree)

class LawfulChildTree (Tree : Type) [ChildTree Tree] : Prop where
  getOptionalString_self : ∀ tree : Tree, (PropertyTree.getOptionalString tree "").isSome = true

section Transport
variable {Tree : Type} [PropertyTree Tree] {R : Type}

def sendHttpCommand : Reply Tree → Reply Tree
  | .error .systemError => .ok (.ofResult .failed)
  | reply => reply

/-- The connection handler of an accepted command: what its callback delivers in the end. -/
def asyncSendHttpCommand (reply : Reply Tree) (callable : DeviceAnswer Tree → Throwing R) :
    Throwing R :=
  match reply with
  | .error _ => callable (.ofResult .failed)
  | .ok result =>
    match callable result with
    | .error _ => callable (.ofResult .failed)
    | .ok value => .ok value

end Transport

/-- The results of the three modes for one reply; an exception is one that leaves `execute`, the
future or the handler. -/
structure Modes (R : Type) where
  execute : Throwing R
  future : Throwing R
  callback : Throwing R

def Modes.Agree {R : Type} (m : Modes R) : Prop :=
  m.execute.toOption = m.future.toOption ∧ m.future.toOption = m.callback.toOption

def modesOf {Tree R : Type} [PropertyTree Tree] (onComplete : DeviceAnswer Tree → Throwing R)
    (reply : Reply Tree) : Modes R where
  execute := (sendHttpCommand reply).bind onComplete
  future := asyncSendHttpCommand reply onComplete
  callback := asyncSendHttpCommand reply onComplete

section Tree
variable {Tree : Type} [ChildTree Tree]
open PropertyTree ChildTree

def getString (tree : Tree) (path : String) : Throwing String :=
  match getOptionalString tree path with
  | some value => .ok value
  | none => .error .propertyTree

def getInt (tree : Tree) (path : String) : Throwing ℤ :=
  match getOptionalInt tree path with
  | some value => .ok value
  | none => .error .propertyTree

def itemNames : List (String × Tree) → Throwing (List String)
  | [] => .ok []
  | name :: list => do
    let parameterName ← getString name.2 ""
    let parameterNames ← itemNames list
    return if parameterName.isEmpty then parameterNames else parameterName :: parameterNames

def parameterProtocolName : String := "protocol_name"
def parameterProtocolVersionMajor : String := "version_major"
def parameterProtocolVersionMinor : String := "version_minor"
def parameterAvailableCommands : String := "commands"

def extractInfoFromPropertyTree (tree : Tree) : Throwing (ParametersMap × ParametersList) :=
  match getChildOptional tree parameterAvailableCommands,
    getOptionalString tree parameterProtocolName,
    getOptionalString tree parameterProtocolVersionMajor,
    getOptionalString tree parameterProtocolVersionMinor with
  | some commands, some protocolName, some protocolVersionMajor, some protocolVersionMinor => do
    let availableCommands ← itemNames (children commands)
    let protocolInfo : ParametersMap :=
      (((∅ : ParametersMap).insertNew parameterProtocolName protocolName).insertNew
        parameterProtocolVersionMajor protocolVersionMajor).insertNew
        parameterProtocolVersionMinor protocolVersionMinor
    return (protocolInfo, availableCommands)
  | _, _, _, _ => .ok (∅, [])

def extractParametersFromPropertyTree (tree : Tree) : Throwing ParametersList :=
  match getChildOptional tree "parameters" with
  | none => .ok []
  | some list => itemNames (children list)

def tcpHandleInfoFromPropertyTree (tree : Tree) : Throwing (ℤ × String) := do
  let port ← getInt tree "port"
  let handle ← getString tree "handle"
  return (port, handle)

def udpHandleInfoFromPropertyTree (tree : Tree) : Throwing String := getString tree "handle"

namespace GetProtocolInfo

def onComplete (result : DeviceAnswer Tree) :
    Throwing (RequestResult × ParametersMap × ParametersList) :=
  if result.requestResult ≠ .success then .ok (result.requestResult, ∅, [])
  else do
    let (info, commands) ← extractInfoFromPropertyTree result.propertyTree
    return (result.requestResult, info, commands)

def modes (reply : Reply Tree) : Modes (RequestResult × ParametersMap × ParametersList) :=
  modesOf onComplete reply

end GetProtocolInfo

def SetParameters.modes (reply : Reply Tree) : Modes RequestResult :=
  modesOf (fun result => .ok result.requestResult) reply

def FetchParameterList.onComplete (result : DeviceAnswer Tree) :
    Throwing (RequestResult × ParametersList) :=
  if result.requestResult ≠ .success then .ok (result.requestResult, [])
  else do
    let parameters ← extractParametersFromPropertyTree result.propertyTree
    return (result.requestResult, parameters)

def FetchParameterList.modes (reply : Reply Tree) : Modes (RequestResult × ParametersList) :=
  modesOf FetchParameterList.onComplete reply

def FactoryResetDevice.modes (reply : Reply Tree) : Modes RequestResult :=
  modesOf (fun result => .ok result.requestResult) reply

def RebootDevice.modes (reply : Reply Tree) : Modes RequestResult :=
  modesOf (fun result => .ok result.requestResult) reply

def RequestTcpHandle.onComplete (result : DeviceAnswer Tree) : Throwing (RequestResult × ℤ × String) :=
  if result.requestResult ≠ .success then .ok (result.requestResult, 0, "")
  else do
    let (port, handle) ← tcpHandleInfoFromPropertyTree result.propertyTree
    return (result.requestResult, port, handle)

def RequestTcpHandle.modes (reply : Reply Tree) : Modes (RequestResult × ℤ × String) :=
  modesOf RequestTcpHandle.onComplete reply

def RequestUdpHandle.onComplete (result : DeviceAnswer Tree) : Throwing (RequestResult × String) :=
  if result.requestResult ≠ .success then .ok (result.requestResult, "")
  else do
    let handle ← udpHandleInfoFromPropertyTree result.propertyTree
    return (result.requestResult, handle)

def RequestUdpHandle.modes (reply : Reply Tree) : Modes (RequestResult × String) :=
  modesOf RequestUdpHandle.onComplete reply

end Tree

inductive PFSDP
  | unknown
  | v100
  | v101
  | v102
  | v103
  | v104
  | aboveV104
  deriving DecidableEq, Repr

/-- `std::stoul`: blanks, a sign, and digits; a minus sign negates within 64 bits. -/
def stoul (text : String) : Throwing UInt64 :=
  let start := text.toList.dropWhile TextStream.isSpace
  let digits := (TextStream.withoutSign start).takeWhile Char.isDigit
  if digits.isEmpty then .error .invalidArgument
  else
    let value := TextStream.digitsValue digits
    if 2 ^ 64 ≤ value then .error .outOfRange
    else if start.head? = some '-' then .ok (-UInt64.ofNat value)
    else .ok (UInt64.ofNat value)

def protocolVersionFromString (major minor : String) : Throwing PFSDP := do
  let numericMajor ← stoul major
  let numericMinor ← stoul minor
  let numericVersion := numericMajor * 100 + numericMinor
  return if numericVersion = 100 then .v100
    else if numericVersion = 101 then .v101
    else if numericVersion = 102 then .v102
    else if numericVersion = 103 then .v103
    else if numericVersion = 104 then .v104
    else if numericVersion > 104 then .aboveV104
    else .unknown

def atName (parameters : ParametersMap) (name : String) : Throwing String :=
  match parameters.lookup name with
  | some value => .ok value
  | none => .error .outOfRange

namespace GetProtocolVersion
variable {Tree : Type} [ChildTree Tree]

def version (requestResult : RequestResult) (parameters : ParametersMap) :
    Throwing (RequestResult × PFSDP) := do
  let major ← atName parameters parameterProtocolVersionMajor
  let minor ← atName parameters parameterProtocolVersionMinor
  let version ← protocolVersionFromString major minor
  return (requestResult, version)

def execute (reply : Reply Tree) : Throwing (RequestResult × PFSDP) := do
  let (requestResult, parameters, _) ← (GetProtocolInfo.modes reply).execute
  -- The test is the wrong way round.
  if requestResult = .success then return (requestResult, .unknown)
  else version requestResult parameters

def future (reply : Reply Tree) : Throwing (RequestResult × PFSDP) := do
  let (requestResult, parameters, _) ← (GetProtocolInfo.modes reply).future
  if requestResult ≠ .success then return (requestResult, .unknown)
  else version requestResult parameters

def callback (reply : Reply Tree) : Throwing (RequestResult × PFSDP) :=
  asyncSendHttpCommand reply fun answer => do
    let (requestResult, parameters, _) ← GetProtocolInfo.onComplete answer
    if requestResult ≠ .success then return (requestResult, .unknown)
    else version requestResult parameters

def modes (reply : Reply Tree) : Modes (RequestResult × PFSDP) :=
  ⟨execute reply, future reply, callback reply⟩

end GetProtocolVersion

def decimal (text : String) : Option ℤ :=
  let digits := TextStream.withoutSign text.toList
  if digits.isEmpty || !digits.all Char.isDigit then none
  else if text.toList.head? = some '-' then some (-TextStream.digitsValue digits)
  else some (TextStream.digitsValue digits)

inductive JsonTree
  | node (data : String) (entries : List (String × JsonTree))

namespace JsonTree

def data : JsonTree → String
  | node data _ => data

def entries : JsonTree → List (String × JsonTree)
  | node _ entries => entries

def child (tree : JsonTree) (path : String) : Option JsonTree :=
  if path = "" then some tree else tree.entries.lookup path

def protocolInfo : JsonTree :=
  node "" [("protocol_name", node "pfsdp" []), ("version_major", node "1" []),
    ("version_minor", node "3" []), ("commands", node "" [("", node "get_protocol_info" [])]),
    ("error_code", node "0" []), ("error_text", node "success" [])]

def protocolInfoBody : List Char :=
  ("\x7b\"protocol_name\":\"pfsdp\",\"version_major\":1,\"version_minor\":3," ++
    "\"commands\":[\"get_protocol_info\"],\"error_code\":0,\"error_text\":\"success\"\x7d").toList

instance : ChildTree JsonTree where
  empty := node "" []
  readJson text := if text = protocolInfoBody then .ok protocolInfo else .error "expected value"
  getOptionalInt tree path := do
    let value ← decimal (← tree.child path).data
    guard (-2147483648 ≤ value ∧ value < 2147483648)
    return value
  getOptionalString tree path := (tree.child path).map data
  getChildOptional := child
  children := entries

instance : LawfulChildTree JsonTree where
  getOptionalString_self _ := rfl

end JsonTree

end R2000Driver.Commands

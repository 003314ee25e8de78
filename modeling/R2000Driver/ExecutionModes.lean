import R2000Driver.Commands

/-!
# Agreement of the execution modes

`modesOf_agree_iff` says once for all commands with one completion function
when their modes agree: the transports must report the same, and the completion
function must not throw. `GetProtocolVersion` has a body of its own for each
mode, and its synchronous form tests the result the wrong way round.
-/

namespace R2000Driver.Commands
open Http Parameters PropertyTree ChildTree

section
variable {Tree : Type}

def Reply.Reported (reply : Reply Tree) : Prop := ∀ e, reply = .error e → e = .systemError

/-- The completion function does not throw on the answer. -/
def Reply.Completes {R : Type} (reply : Reply Tree) (onComplete : DeviceAnswer Tree → Throwing R) :
    Prop :=
  ∀ answer, reply = .ok answer → ∃ value, onComplete answer = .ok value

def Reply.Succeeds (reply : Reply Tree) (tree : Tree) : Prop := reply = .ok ⟨.success, tree⟩

theorem completes_iff {R X : Type} {onComplete : DeviceAnswer Tree → Throwing R}
    {extract : Tree → Throwing X}
    (hfailure : ∀ result tree, result ≠ .success → ∃ value, onComplete ⟨result, tree⟩ = .ok value)
    (hsuccess : ∀ tree, (∃ value, onComplete ⟨.success, tree⟩ = .ok value) ↔
      ∃ info, extract tree = .ok info) (reply : Reply Tree) :
    reply.Completes onComplete ↔ ∀ tree, reply.Succeeds tree → ∃ info, extract tree = .ok info := by
  constructor
  · intro h tree hreply
    exact (hsuccess tree).mp (h _ hreply)
  · intro h answer hreply
    obtain ⟨result, tree⟩ := answer
    by_cases hs : result = .success
    · subst hs
      exact (hsuccess tree).mpr (h tree hreply)
    · exact hfailure result tree hs

variable [ChildTree Tree]

theorem modesOf_agree_iff {R : Type} {onComplete : DeviceAnswer Tree → Throwing R} {failed : R}
    (hfailed : onComplete (.ofResult .failed) = .ok failed) (reply : Reply Tree) :
    (modesOf onComplete reply).Agree ↔ reply.Reported ∧ reply.Completes onComplete := by
  cases reply with
  | error e =>
    cases e with
    | systemError =>
      simp [modesOf, Modes.Agree, sendHttpCommand, asyncSendHttpCommand, Except.bind,
        Reply.Reported, Reply.Completes]
    | _ =>
      simp [modesOf, Modes.Agree, sendHttpCommand, asyncSendHttpCommand, hfailed, Except.bind,
        Except.toOption, Reply.Reported]
  | ok answer =>
    cases hanswer : onComplete answer with
    | error e =>
      simp [modesOf, Modes.Agree, sendHttpCommand, asyncSendHttpCommand, hfailed, hanswer,
        Except.bind, Except.toOption, Reply.Completes]
    | ok value =>
      simp [modesOf, Modes.Agree, sendHttpCommand, asyncSendHttpCommand, hanswer, Except.bind,
        Reply.Reported, Reply.Completes]

theorem Modes.not_agree_of_thrown {R : Type} {m : Modes R} {e : StdException} {value : R}
    (hexecute : m.execute = .error e) (hfuture : m.future = .ok value) : ¬ m.Agree := by
  intro h
  have hmodes := h.1
  rw [hexecute, hfuture] at hmodes
  cases hmodes

theorem getString_ok_iff (tree : Tree) (path value : String) :
    getString tree path = .ok value ↔ getOptionalString tree path = some value := by
  unfold getString
  cases getOptionalString tree path <;> simp

theorem tcpHandleInfo_ok_iff (tree : Tree) :
    (∃ info, tcpHandleInfoFromPropertyTree tree = .ok info) ↔
      (getOptionalInt tree "port").isSome = true ∧
        (getOptionalString tree "handle").isSome = true := by
  unfold tcpHandleInfoFromPropertyTree getInt getString
  cases getOptionalInt tree "port" <;> cases getOptionalString tree "handle" <;>
    simp [bind, Except.bind, pure, Except.pure]

theorem udpHandleInfo_ok_iff (tree : Tree) :
    (∃ info, udpHandleInfoFromPropertyTree tree = .ok info) ↔
      (getOptionalString tree "handle").isSome = true := by
  unfold udpHandleInfoFromPropertyTree getString
  cases getOptionalString tree "handle" <;> simp

theorem RequestTcpHandle.agree_iff (reply : Reply Tree) :
    (RequestTcpHandle.modes reply).Agree ↔ reply.Reported ∧
      ∀ tree, reply.Succeeds tree → (getOptionalInt tree "port").isSome = true ∧
        (getOptionalString tree "handle").isSome = true := by
  rw [RequestTcpHandle.modes, modesOf_agree_iff (by rfl)]
  simp only [← tcpHandleInfo_ok_iff]
  rw [completes_iff]
  · intro result tree hs
    exact ⟨_, if_pos hs⟩
  · intro tree
    simp only [RequestTcpHandle.onComplete, ne_eq, not_true_eq_false, ↓reduceIte]
    cases tcpHandleInfoFromPropertyTree tree <;> simp [bind, Except.bind, pure, Except.pure]

theorem RequestUdpHandle.agree_iff (reply : Reply Tree) :
    (RequestUdpHandle.modes reply).Agree ↔ reply.Reported ∧
      ∀ tree, reply.Succeeds tree → (getOptionalString tree "handle").isSome = true := by
  rw [RequestUdpHandle.modes, modesOf_agree_iff (by rfl)]
  simp only [← udpHandleInfo_ok_iff]
  rw [completes_iff]
  · intro result tree hs
    exact ⟨_, if_pos hs⟩
  · intro tree
    simp only [RequestUdpHandle.onComplete, ne_eq, not_true_eq_false, ↓reduceIte]
    cases udpHandleInfoFromPropertyTree tree <;> simp [bind, Except.bind, pure, Except.pure]

theorem resultOnly_agree_iff (reply : Reply Tree) :
    (modesOf (fun result => Except.ok result.requestResult) reply).Agree ↔ reply.Reported := by
  have hfailed : (fun result : DeviceAnswer Tree =>
      (.ok result.requestResult : Throwing RequestResult)) (.ofResult .failed) = .ok .failed := rfl
  apply (modesOf_agree_iff hfailed reply).trans
  exact and_iff_left fun answer _ => ⟨_, rfl⟩

section
variable [LawfulChildTree Tree]

theorem itemNames_ok (list : List (String × Tree)) : ∃ names, itemNames list = .ok names := by
  induction list with
  | nil => exact ⟨[], rfl⟩
  | cons name list ih =>
    obtain ⟨names, hnames⟩ := ih
    obtain ⟨value, hvalue⟩ := Option.isSome_iff_exists.mp
      (LawfulChildTree.getOptionalString_self name.2)
    rw [itemNames, (getString_ok_iff name.2 "" value).mpr hvalue, hnames]
    exact ⟨_, rfl⟩

theorem extractInfo_ok (tree : Tree) : ∃ info, extractInfoFromPropertyTree tree = .ok info := by
  unfold extractInfoFromPropertyTree
  split
  · next commands _ _ _ _ _ _ _ =>
    obtain ⟨names, hnames⟩ := itemNames_ok (children commands)
    rw [hnames]
    exact ⟨_, rfl⟩
  · exact ⟨_, rfl⟩

theorem extractParameters_ok (tree : Tree) :
    ∃ parameters, extractParametersFromPropertyTree tree = .ok parameters := by
  unfold extractParametersFromPropertyTree
  split
  · exact ⟨_, rfl⟩
  · exact itemNames_ok _

theorem GetProtocolInfo.agree_iff (reply : Reply Tree) :
    (GetProtocolInfo.modes reply).Agree ↔ reply.Reported := by
  rw [GetProtocolInfo.modes, modesOf_agree_iff (by rfl), completes_iff]
  · exact and_iff_left fun tree _ => extractInfo_ok tree
  · intro result tree hs
    exact ⟨_, if_pos hs⟩
  · intro tree
    simp only [GetProtocolInfo.onComplete, ne_eq, not_true_eq_false, ↓reduceIte]
    cases extractInfoFromPropertyTree tree <;> simp [bind, Except.bind, pure, Except.pure]

theorem FetchParameterList.agree_iff (reply : Reply Tree) :
    (FetchParameterList.modes reply).Agree ↔ reply.Reported := by
  rw [FetchParameterList.modes, modesOf_agree_iff (by rfl), completes_iff]
  · exact and_iff_left fun tree _ => extractParameters_ok tree
  · intro result tree hs
    exact ⟨_, if_pos hs⟩
  · intro tree
    simp only [FetchParameterList.onComplete, ne_eq, not_true_eq_false, ↓reduceIte]
    cases extractParametersFromPropertyTree tree <;> simp [bind, Except.bind, pure, Except.pure]

end

structure ProtocolEntries (tree : Tree) (major minor : String) : Prop where
  commands : (getChildOptional tree parameterAvailableCommands).isSome = true
  name : (getOptionalString tree parameterProtocolName).isSome = true
  versionMajor : getOptionalString tree parameterProtocolVersionMajor = some major
  versionMinor : getOptionalString tree parameterProtocolVersionMinor = some minor

def DecodedVersion (tree : Tree) (version : PFSDP) : Prop :=
  ∃ major minor, getOptionalString tree parameterProtocolVersionMajor = some major ∧
    getOptionalString tree parameterProtocolVersionMinor = some minor ∧
    protocolVersionFromString major minor = .ok version

def Modes.Deliver {R : Type} (m : Modes R) (value : R) : Prop :=
  m.execute = .ok value ∧ m.future = .ok value ∧ m.callback = .ok value

/-- A successful answer with a version below 1.0, which decodes to `UNKNOWN`. -/
def UnknownVersion (reply : Reply Tree) : Prop :=
  ∃ tree major minor numericMajor numericMinor, reply.Succeeds tree ∧
    ProtocolEntries tree major minor ∧ stoul major = .ok numericMajor ∧
    stoul minor = .ok numericMinor ∧ numericMajor * 100 + numericMinor < 100

theorem protocolVersion_unknown_iff (major minor : String) :
    protocolVersionFromString major minor = .ok .unknown ↔ ∃ numericMajor numericMinor,
      stoul major = .ok numericMajor ∧ stoul minor = .ok numericMinor ∧
        numericMajor * 100 + numericMinor < 100 := by
  unfold protocolVersionFromString
  cases stoul major with
  | error e => simp [bind, Except.bind]
  | ok a =>
    cases stoul minor with
    | error e => simp [bind, Except.bind]
    | ok b =>
      simp only [bind, Except.bind, pure, Except.pure, Except.ok.injEq, exists_and_left,
        exists_eq_left']
      generalize a * 100 + b = version
      grind

namespace GetProtocolVersion

structure DeliversVersion (reply : Reply Tree) : Prop where
  agree : (modes reply).Agree
  success : ∀ answer version, sendHttpCommand reply = .ok answer →
    answer.requestResult = .success → DecodedVersion answer.propertyTree version →
    (modes reply).Deliver (.success, version)
  failure : ∀ answer, sendHttpCommand reply = .ok answer → answer.requestResult ≠ .success →
    (modes reply).Deliver (answer.requestResult, .unknown)

theorem version_empty (result : RequestResult) : version result ∅ = .error .outOfRange := rfl

theorem version_of_entries {tree : Tree} {major minor : String}
    (h : ProtocolEntries tree major minor) {info : ParametersMap} {commands : ParametersList}
    (hinfo : extractInfoFromPropertyTree tree = .ok (info, commands)) (result : RequestResult) :
    version result info =
      (protocolVersionFromString major minor).map fun version => (result, version) := by
  obtain ⟨list, hlist⟩ := Option.isSome_iff_exists.mp h.commands
  obtain ⟨name, hname⟩ := Option.isSome_iff_exists.mp h.name
  simp only [extractInfoFromPropertyTree, hlist, hname, h.versionMajor, h.versionMinor] at hinfo
  cases hnames : itemNames (children list) with
  | error e =>
    rw [hnames] at hinfo
    cases hinfo
  | ok names =>
    rw [hnames] at hinfo
    cases hinfo
    have hempty : ∀ key : String, key ∉ (∅ : ParametersMap) := fun key => AList.notMem_empty key
    have hnameMajor : parameterProtocolVersionMajor ≠ parameterProtocolName := by decide
    have hnameMinor : parameterProtocolVersionMinor ≠ parameterProtocolName := by decide
    have hmajorMinor : parameterProtocolVersionMajor ≠ parameterProtocolVersionMinor := by decide
    simp [version, atName, ParametersMap.lookup_insertNew, ParametersMap.mem_insertNew, hempty,
      hnameMajor, hnameMinor, hmajorMinor, hmajorMinor.symm, bind, Except.bind, pure, Except.pure]
    cases protocolVersionFromString major minor <;> rfl

theorem version_of_no_entries {tree : Tree} (h : ¬ ∃ major minor, ProtocolEntries tree major minor)
    {info : ParametersMap} {commands : ParametersList}
    (hinfo : extractInfoFromPropertyTree tree = .ok (info, commands)) (result : RequestResult) :
    version result info = .error .outOfRange := by
  unfold extractInfoFromPropertyTree at hinfo
  split at hinfo
  · next hcommands hname hmajor hminor =>
    exact absurd ⟨_, _, Option.isSome_of_eq_some hcommands, Option.isSome_of_eq_some hname, hmajor,
      hminor⟩ h
  · cases hinfo
    exact version_empty result

theorem modes_success {tree : Tree} {info : ParametersMap} {commands : ParametersList}
    (hinfo : extractInfoFromPropertyTree tree = .ok (info, commands)) :
    modes (.ok ⟨.success, tree⟩) = ⟨.ok (.success, .unknown), version .success info,
      .ok ((version .success info).toOption.getD (.failed, .unknown))⟩ := by
  have hcomplete : GetProtocolInfo.onComplete ⟨.success, tree⟩ = .ok (.success, info, commands) := by
    simp [GetProtocolInfo.onComplete, hinfo, bind, Except.bind, pure, Except.pure]
  have hfailed : GetProtocolInfo.onComplete (.ofResult .failed : DeviceAnswer Tree) =
      .ok (.failed, ∅, []) := rfl
  simp only [modes, execute, future, callback, GetProtocolInfo.modes, modesOf, sendHttpCommand,
    asyncSendHttpCommand, Except.bind, hcomplete, hfailed, bind, pure, Except.pure]
  cases hversion : version .success info <;> simp [Except.toOption]

theorem modes_failure (answer : DeviceAnswer Tree) (h : answer.requestResult ≠ .success) :
    (modes (.ok answer)).execute = .error .outOfRange ∧
      (modes (.ok answer)).future = .ok (answer.requestResult, .unknown) := by
  have hcomplete : GetProtocolInfo.onComplete answer = .ok (answer.requestResult, ∅, []) :=
    if_pos h
  constructor
  · simp [modes, execute, GetProtocolInfo.modes, modesOf, sendHttpCommand, Except.bind, hcomplete,
      bind, h, version_empty]
  · simp [modes, future, GetProtocolInfo.modes, modesOf, asyncSendHttpCommand, hcomplete, bind,
      Except.bind, h, pure, Except.pure]

theorem modes_error (e : StdException) : (∃ e', (modes (.error e : Reply Tree)).execute = .error e') ∧
    (modes (.error e : Reply Tree)).future = .ok (.failed, .unknown) := by
  constructor
  · cases e <;> exact ⟨_, rfl⟩
  · rfl

theorem agree_success_iff {tree : Tree} {info : ParametersMap} {commands : ParametersList}
    (hinfo : extractInfoFromPropertyTree tree = .ok (info, commands)) :
    (modes (.ok ⟨.success, tree⟩)).Agree ↔ version .success info = .ok (.success, .unknown) := by
  rw [modes_success hinfo]
  cases hversion : version .success info with
  | error e => simp [Modes.Agree, Except.toOption]
  | ok value =>
    simp only [Modes.Agree, Except.toOption, Option.getD, and_true, Option.some.injEq,
      Except.ok.injEq]
    exact eq_comm

theorem version_unknown_iff {tree : Tree} {info : ParametersMap} {commands : ParametersList}
    (hinfo : extractInfoFromPropertyTree tree = .ok (info, commands)) :
    version .success info = .ok (.success, .unknown) ↔ ∃ major minor,
      ProtocolEntries tree major minor ∧ protocolVersionFromString major minor = .ok .unknown := by
  constructor
  · intro h
    by_cases hentries : ∃ major minor, ProtocolEntries tree major minor
    · obtain ⟨major, minor, hentries⟩ := hentries
      refine ⟨major, minor, hentries, ?_⟩
      rw [version_of_entries hentries hinfo] at h
      cases hversion : protocolVersionFromString major minor with
      | error e =>
        rw [hversion] at h
        cases h
      | ok value =>
        rw [hversion] at h
        cases h
        rfl
    · rw [version_of_no_entries hentries hinfo] at h
      cases h
  · intro h
    obtain ⟨major, minor, hentries, hversion⟩ := h
    rw [version_of_entries hentries hinfo, hversion]
    rfl

theorem agree_iff [LawfulChildTree Tree] (reply : Reply Tree) :
    (modes reply).Agree ↔ UnknownVersion reply := by
  cases reply with
  | error e =>
    obtain ⟨⟨e', hexecute⟩, hfuture⟩ := @modes_error Tree _ e
    apply iff_of_false (Modes.not_agree_of_thrown hexecute hfuture)
    intro h
    obtain ⟨tree, major, minor, a, b, hreply, h⟩ := h
    cases hreply
  | ok answer =>
    obtain ⟨result, tree⟩ := answer
    by_cases hs : result = .success
    · subst hs
      obtain ⟨⟨info, commands⟩, hinfo⟩ := extractInfo_ok tree
      rw [agree_success_iff hinfo, version_unknown_iff hinfo]
      constructor
      · intro h
        obtain ⟨major, minor, hentries, hversion⟩ := h
        obtain ⟨a, b, hmajor, hminor, hlt⟩ := (protocolVersion_unknown_iff major minor).mp hversion
        exact ⟨tree, major, minor, a, b, rfl, hentries, hmajor, hminor, hlt⟩
      · intro h
        obtain ⟨tree', major, minor, a, b, hreply, hentries, hmajor, hminor, hlt⟩ := h
        cases hreply
        exact ⟨major, minor, hentries,
          (protocolVersion_unknown_iff major minor).mpr ⟨a, b, hmajor, hminor, hlt⟩⟩
    · obtain ⟨hexecute, hfuture⟩ := modes_failure ⟨result, tree⟩ hs
      apply iff_of_false (Modes.not_agree_of_thrown hexecute hfuture)
      intro h
      obtain ⟨tree', major, minor, a, b, hreply, h⟩ := h
      cases hreply
      exact hs rfl

theorem deliversVersion_iff [LawfulChildTree Tree] (reply : Reply Tree) :
    DeliversVersion reply ↔ UnknownVersion reply := by
  constructor
  · intro h
    exact (agree_iff reply).mp h.agree
  · intro h
    have hagree := (agree_iff reply).mpr h
    obtain ⟨tree, major, minor, a, b, rfl, hentries, hmajor, hminor, hlt⟩ := h
    have hversion := (protocolVersion_unknown_iff major minor).mpr ⟨a, b, hmajor, hminor, hlt⟩
    obtain ⟨⟨info, commands⟩, hinfo⟩ := extractInfo_ok tree
    have hunknown := (version_unknown_iff hinfo).mpr ⟨major, minor, hentries, hversion⟩
    refine ⟨hagree, ?_, ?_⟩
    · intro answer version hanswer hsuccess hdecoded
      cases hanswer
      obtain ⟨major', minor', hmajor', hminor', hversion'⟩ := hdecoded
      cases Option.some.inj (hentries.versionMajor.symm.trans hmajor')
      cases Option.some.inj (hentries.versionMinor.symm.trans hminor')
      cases Except.ok.inj (hversion.symm.trans hversion')
      rw [modes_success hinfo, hunknown]
      exact ⟨rfl, rfl, rfl⟩
    · intro answer hanswer hs
      cases hanswer
      exact absurd rfl hs

end GetProtocolVersion

inductive SyncCommand
  | getProtocolInfo
  | getProtocolVersion
  | setParameters
  | fetchParameterList
  | factoryResetDevice
  | rebootDevice
  | requestTcpHandle
  | requestUdpHandle
  deriving DecidableEq, Repr

namespace SyncCommand

def ModesAgree (reply : Reply Tree) : SyncCommand → Prop
  | getProtocolInfo => (GetProtocolInfo.modes reply).Agree
  | getProtocolVersion => GetProtocolVersion.DeliversVersion reply
  | setParameters => (SetParameters.modes reply).Agree
  | fetchParameterList => (FetchParameterList.modes reply).Agree
  | factoryResetDevice => (FactoryResetDevice.modes reply).Agree
  | rebootDevice => (RebootDevice.modes reply).Agree
  | requestTcpHandle => (RequestTcpHandle.modes reply).Agree
  | requestUdpHandle => (RequestUdpHandle.modes reply).Agree

def Accepts (reply : Reply Tree) : SyncCommand → Prop
  | getProtocolVersion => UnknownVersion reply
  | requestTcpHandle => reply.Reported ∧ ∀ tree, reply.Succeeds tree →
      (getOptionalInt tree "port").isSome = true ∧ (getOptionalString tree "handle").isSome = true
  | requestUdpHandle => reply.Reported ∧ ∀ tree, reply.Succeeds tree →
      (getOptionalString tree "handle").isSome = true
  | _ => reply.Reported

theorem modesAgree_iff [LawfulChildTree Tree] (command : SyncCommand) (reply : Reply Tree) :
    command.ModesAgree reply ↔ command.Accepts reply := by
  cases command with
  | getProtocolInfo => exact GetProtocolInfo.agree_iff reply
  | getProtocolVersion => exact GetProtocolVersion.deliversVersion_iff reply
  | setParameters => exact resultOnly_agree_iff reply
  | fetchParameterList => exact FetchParameterList.agree_iff reply
  | factoryResetDevice => exact resultOnly_agree_iff reply
  | rebootDevice => exact resultOnly_agree_iff reply
  | requestTcpHandle => exact RequestTcpHandle.agree_iff reply
  | requestUdpHandle => exact RequestUdpHandle.agree_iff reply

end SyncCommand

end

def JsonTree.tcpHandle : JsonTree := .node "" [("port", .node "32731" []), ("handle", .node "s10" [])]

theorem SyncCommand.modesAgree_iff_tcpHandle :
    SyncCommand.requestTcpHandle.ModesAgree (.ok ⟨.success, JsonTree.tcpHandle⟩ : Reply JsonTree) ∧
      (RequestTcpHandle.modes (.ok ⟨.success, JsonTree.tcpHandle⟩)).execute =
        .ok (.success, 32731, "s10") := by
  have hport : getOptionalInt JsonTree.tcpHandle "port" = some 32731 := by decide
  have hhandle : getOptionalString JsonTree.tcpHandle "handle" = some "s10" := rfl
  have haccepts : SyncCommand.requestTcpHandle.Accepts
      (.ok ⟨.success, JsonTree.tcpHandle⟩ : Reply JsonTree) := by
    refine ⟨nofun, fun tree htree => ?_⟩
    cases htree
    rw [hport, hhandle]
    exact ⟨rfl, rfl⟩
  refine ⟨(SyncCommand.modesAgree_iff .requestTcpHandle _).mpr haccepts, ?_⟩
  change RequestTcpHandle.onComplete ⟨.success, JsonTree.tcpHandle⟩ = _
  simp [RequestTcpHandle.onComplete, tcpHandleInfoFromPropertyTree, getInt, getString, hport, hhandle,
    bind, Except.bind, pure, Except.pure]

theorem protocolVersion_unknown_on_success :
    GetProtocolVersion.modes (.ok ⟨.success, JsonTree.protocolInfo⟩) =
        ⟨.ok (.success, .unknown), .ok (.success, .v103), .ok (.success, .v103)⟩ ∧
      ¬ SyncCommand.getProtocolVersion.ModesAgree (.ok ⟨.success, JsonTree.protocolInfo⟩) := by
  have hmodes : GetProtocolVersion.modes (.ok ⟨.success, JsonTree.protocolInfo⟩) =
      ⟨.ok (.success, .unknown), .ok (.success, .v103), .ok (.success, .v103)⟩ := by rfl
  refine ⟨hmodes, ?_⟩
  intro h
  have hagree := h.agree.1
  rw [hmodes] at hagree
  cases hagree

end R2000Driver.Commands

import R2000Driver.BuilderSettings
import R2000Driver.HttpGet
import R2000Driver.JoinedText

/-!
# The request line

`makeRequestFromParameters` writes a map of parameters into the target of the
request, `name=value` for each entry in the order of iteration. The values are
written as they are. Only the HMI texts are encoded before, and of them only the
white space.

A target `Carries` a map when it is one word and splitting its query gives the
map back (`carries_iff`). The names in the maps of the ReadWrite builders are the
parameters of settings (`inner_of_named`).
-/

namespace R2000Driver.RequestLine
open Parameters TextStream Http JoinedText

inductive Command
  | getProtocolInfo
  | releaseHandle
  | startScanOutput
  | stopScanOutput
  | feedWatchdog
  | rebootDevice
  | listParameters
  | getParameter
  | setParameter
  | resetParameters
  | factoryReset
  | requestTcpHandle
  | requestUdpHandle
  | setScanOutputConfig
  | getScanOutputConfig
  deriving DecidableEq, Repr

def Command.name : Command → String
  | getProtocolInfo => "get_protocol_info"
  | releaseHandle => "release_handle"
  | startScanOutput => "start_scanoutput"
  | stopScanOutput => "stop_scanoutput"
  | feedWatchdog => "feed_watchdog"
  | rebootDevice => "reboot_device"
  | listParameters => "list_parameters"
  | getParameter => "get_parameter"
  | setParameter => "set_parameter"
  | resetParameters => "reset_parameter"
  | factoryReset => "factory_reset"
  | requestTcpHandle => "request_handle_tcp"
  | requestUdpHandle => "request_handle_udp"
  | setScanOutputConfig => "set_scanoutput_config"
  | getScanOutputConfig => "get_scanoutput_config"

def writeParameter (parameter : String × String) : List Char :=
  parameter.1.toList ++ '=' :: parameter.2.toList

def makeRequestFromParameters (command : String) (parameters : List (String × String)) :
    List Char :=
  let request := "/cmd/".toList ++ command.toList
  let request := if parameters.isEmpty then request else request ++ ['?']
  let request := parameters.foldl (fun request parameter =>
    request ++ (writeParameter parameter ++ ['&'])) request
  if request.getLast? = some '&' then request.dropLast else request

def chained (builders : List Builder) : ParametersMap :=
  builders.foldl (fun parameters builder => parameters.insertAll builder.build) ∅

def query (target : List Char) : Option (List Char) :=
  match target.dropWhile fun c => c != '?' with
  | [] => none
  | _ :: rest => some rest

def readParameter (piece : List Char) : String × String :=
  (String.ofList (piece.takeWhile fun c => c != '='),
    String.ofList ((piece.dropWhile fun c => c != '=').drop 1))

def readParameters (target : List Char) : List (String × String) :=
  match query target with
  | none => []
  | some text => (text.splitOn '&').map readParameter

/-- The target is one word, the request has one line, and its query is the map. -/
structure Carries (target : List Char) (parameters : ParametersMap) : Prop where
  noSpace : ∀ c ∈ target, isSpace c = false
  requestLine : (requestText target).splitOn '\n' =
    ["GET ".toList ++ target ++ " HTTP/1.0\r".toList, ['\r'], []]
  words : ("GET ".toList ++ target ++ " HTTP/1.0".toList).splitOn ' ' =
    ["GET".toList, target, "HTTP/1.0".toList]
  parameters : (readParameters target).Perm parameters.pairs

/-- A value that can be written as it is. -/
def Plain (value : String) : Prop := ∀ c ∈ value.toList, isSpace c = false ∧ c ≠ '&'

def Inner (c : Char) : Prop := isSpace c = false ∧ c ≠ '&' ∧ c ≠ '=' ∧ c ≠ '?'

def InnerText (text : List Char) : Prop := ∀ c ∈ text, Inner c

instance (c : Char) : Decidable (Inner c) := inferInstanceAs (Decidable (_ ∧ _ ∧ _ ∧ _))

instance (text : List Char) : Decidable (InnerText text) := List.decidableBAll Inner text

theorem Command.name_inner (command : Command) : InnerText command.name.toList := by
  cases command <;> decide

theorem parameters_inner : ∀ s ∈ Setting.all, InnerText s.parameter.toList := by decide +kernel

theorem parameter_inner (s : Setting) : InnerText s.parameter.toList :=
  parameters_inner s (Setting.mem_all s)

theorem path_inner (command : Command) :
    InnerText ("/cmd/".toList ++ command.name.toList) := by
  have hcmd : InnerText "/cmd/".toList := by decide
  intro c hc
  rcases List.mem_append.mp hc with hc | hc
  · exact hcmd c hc
  · exact command.name_inner c hc

theorem request_nil (command : Command) : makeRequestFromParameters command.name [] =
    "/cmd/".toList ++ command.name.toList := by
  apply if_neg
  intro h
  exact (path_inner command '&' (List.mem_of_getLast? h)).2.1 rfl

theorem request_cons (command : String) {parameters : List (String × String)}
    (h : parameters ≠ []) : makeRequestFromParameters command parameters =
      ("/cmd/".toList ++ command.toList) ++
        '?' :: ['&'].intercalate (parameters.map writeParameter) := by
  have hmap : parameters.map writeParameter ≠ [] := by simp [h]
  have hjoined : parameters.flatMap (fun p => writeParameter p ++ ['&']) =
      ['&'].intercalate (parameters.map writeParameter) ++ ['&'] := by
    rw [← joined_eq '&' hmap, joined, List.flatMap_map]
  have hempty : parameters.isEmpty = false := by simp [h]
  have hfold : ∀ start : List Char, parameters.foldl (fun request parameter =>
      request ++ (writeParameter parameter ++ ['&'])) start =
        start ++ ['&'].intercalate (parameters.map writeParameter) ++ ['&'] := by
    intro start
    rw [List.foldl_append_eq_append, ← List.flatMap_def, hjoined, List.append_assoc]
  simp only [makeRequestFromParameters, hempty, Bool.false_eq_true, ↓reduceIte, hfold,
    List.getLast?_concat, List.dropLast_concat]
  rw [List.append_assoc ("/cmd/".toList ++ command.toList)]
  rfl

theorem query_path (command : Command) :
    query ("/cmd/".toList ++ command.name.toList) = none := by
  have hdrop : ("/cmd/".toList ++ command.name.toList).dropWhile (fun c => c != '?') = [] := by
    rw [List.dropWhile_eq_nil_iff]
    intro c hc
    exact bne_iff_ne.mpr (path_inner command c hc).2.2.2
  rw [query, hdrop]

theorem query_behind (command : Command) (text : List Char) :
    query (("/cmd/".toList ++ command.name.toList) ++ '?' :: text) = some text := by
  have hdrop : (("/cmd/".toList ++ command.name.toList) ++ '?' :: text).dropWhile
      (fun c => c != '?') = '?' :: text := by
    rw [List.dropWhile_append_of_pos]
    · rfl
    · intro c hc
      exact bne_iff_ne.mpr (path_inner command c hc).2.2.2
  rw [query, hdrop]

theorem readParameter_writeParameter {parameter : String × String}
    (h : '=' ∉ parameter.1.toList) : readParameter (writeParameter parameter) = parameter := by
  have hname : ∀ c ∈ parameter.1.toList, (c != '=') = true := by
    intro c hc
    rw [bne_iff_ne]
    intro heq
    exact h (heq ▸ hc)
  rw [readParameter, writeParameter, List.takeWhile_append_of_pos hname,
    List.dropWhile_append_of_pos hname]
  simp

theorem readParameters_request (command : Command) {parameters : List (String × String)}
    (h : parameters ≠ []) : readParameters (makeRequestFromParameters command.name parameters) =
      ((['&'].intercalate (parameters.map writeParameter)).splitOn '&').map readParameter := by
  rw [readParameters, request_cons command.name h, query_behind]

theorem not_mem_of_mem_readParameters {target : List Char} {parameter : String × String}
    (h : parameter ∈ readParameters target) : '&' ∉ parameter.2.toList := by
  unfold readParameters at h
  split at h
  · cases h
  · obtain ⟨piece, hpiece, rfl⟩ := List.mem_map.mp h
    intro hmem
    rw [readParameter, String.toList_ofList] at hmem
    exact not_mem_of_mem_splitOn hpiece
      ((List.dropWhile_sublist _).mem (List.mem_of_mem_drop hmem))

theorem mem_request {command : Command} {parameters : List (String × String)} {c : Char}
    (h : c ∈ makeRequestFromParameters command.name parameters) :
    Inner c ∨ c = '?' ∨ c = '&' ∨ c = '=' ∨
      ∃ p ∈ parameters, c ∈ p.1.toList ∨ c ∈ p.2.toList := by
  by_cases hparameters : parameters = []
  · rw [hparameters, request_nil] at h
    exact Or.inl (path_inner command c h)
  · rw [request_cons command.name hparameters] at h
    rcases List.mem_append.mp h with h | h
    · exact Or.inl (path_inner command c h)
    · rcases List.mem_cons.mp h with h | h
      · exact Or.inr (Or.inl h)
      · rcases mem_intercalate h with h | ⟨piece, hpiece, hc⟩
        · exact Or.inr (Or.inr (Or.inl h))
        · obtain ⟨p, hp, rfl⟩ := List.mem_map.mp hpiece
          rcases List.mem_append.mp hc with hc | hc
          · exact Or.inr (Or.inr (Or.inr (Or.inr ⟨p, hp, Or.inl hc⟩)))
          · rcases List.mem_cons.mp hc with hc | hc
            · exact Or.inr (Or.inr (Or.inr (Or.inl hc)))
            · exact Or.inr (Or.inr (Or.inr (Or.inr ⟨p, hp, Or.inr hc⟩)))

theorem mem_request_of_value {command : Command} {parameters : List (String × String)}
    {p : String × String} (hp : p ∈ parameters) {c : Char} (hc : c ∈ p.2.toList) :
    c ∈ makeRequestFromParameters command.name parameters := by
  have hpiece : c ∈ writeParameter p := List.mem_append_right _ (List.mem_cons_of_mem _ hc)
  rw [request_cons command.name (List.ne_nil_of_mem hp)]
  exact List.mem_append_right _ (List.mem_cons_of_mem _
    (mem_intercalate_of_mem '&' (List.mem_map_of_mem hp) hpiece))

theorem noSpace_iff (command : Command) {parameters : List (String × String)}
    (hnames : ∀ p ∈ parameters, InnerText p.1.toList) :
    (∀ c ∈ makeRequestFromParameters command.name parameters, isSpace c = false) ↔
      ∀ p ∈ parameters, ∀ c ∈ p.2.toList, isSpace c = false := by
  constructor
  · intro h p hp c hc
    exact h c (mem_request_of_value hp hc)
  · intro h c hc
    rcases mem_request hc with hinner | rfl | rfl | rfl | ⟨p, hp, hname | hvalue⟩
    · exact hinner.1
    · rfl
    · rfl
    · rfl
    · exact (hnames p hp c hname).1
    · exact h p hp c hvalue

theorem requestLine_of_noSpace {target : List Char} (h : ∀ c ∈ target, isSpace c = false) :
    (requestText target).splitOn '\n' =
        ["GET ".toList ++ target ++ " HTTP/1.0\r".toList, ['\r'], []] ∧
      ("GET ".toList ++ target ++ " HTTP/1.0".toList).splitOn ' ' =
        ["GET".toList, target, "HTTP/1.0".toList] := by
  have hend : '\n' ∉ target := fun hc => absurd (h '\n' hc) (by decide)
  have hblank : ' ' ∉ target := fun hc => absurd (h ' ' hc) (by decide)
  have hline : '\n' ∉ "GET ".toList ++ target ++ " HTTP/1.0\r".toList := by simp [hend]
  constructor
  · have htext : requestText target =
        ("GET ".toList ++ target ++ " HTTP/1.0\r".toList) ++ '\n' :: (['\r'] ++ '\n' :: []) := by
      simp [requestText]
    rw [htext, List.splitOn_append_cons_self_of_not_mem hline,
      List.splitOn_append_cons_self_of_not_mem (by decide), List.splitOn_nil]
  · have htext : "GET ".toList ++ target ++ " HTTP/1.0".toList =
        "GET".toList ++ ' ' :: (target ++ ' ' :: "HTTP/1.0".toList) := by simp
    rw [htext, List.splitOn_append_cons_self_of_not_mem (by decide),
      List.splitOn_append_cons_self_of_not_mem hblank, List.splitOn_eq_singleton (by decide)]

theorem readParameters_of_plain (command : Command) {parameters : List (String × String)}
    (hnames : ∀ p ∈ parameters, InnerText p.1.toList)
    (hvalues : ∀ p ∈ parameters, '&' ∉ p.2.toList) :
    readParameters (makeRequestFromParameters command.name parameters) = parameters := by
  by_cases hparameters : parameters = []
  · rw [hparameters, request_nil, readParameters, query_path]
  · have hpieces : ∀ piece ∈ parameters.map writeParameter, '&' ∉ piece := by
      intro piece hpiece
      obtain ⟨p, hp, rfl⟩ := List.mem_map.mp hpiece
      intro hmem
      rcases List.mem_append.mp hmem with hmem | hmem
      · exact (hnames p hp '&' hmem).2.1 rfl
      · rcases List.mem_cons.mp hmem with hmem | hmem
        · revert hmem
          decide
        · exact hvalues p hp hmem
    rw [readParameters_request command hparameters,
      List.splitOn_intercalate '&' hpieces (by simp [hparameters]), List.map_map]
    have hread : ∀ p ∈ parameters, (readParameter ∘ writeParameter) p = id p := by
      intro p hp
      apply readParameter_writeParameter
      intro hmem
      exact (hnames p hp '=' hmem).2.2.1 rfl
    rw [List.map_congr_left hread, List.map_id]

theorem carries_iff (command : Command) {parameters : ParametersMap}
    {iteration : List (String × String)} (hiteration : parameters.Iterates iteration)
    (hnames : ∀ p ∈ iteration, InnerText p.1.toList) :
    Carries (makeRequestFromParameters command.name iteration) parameters ↔
      ∀ p ∈ iteration, Plain p.2 := by
  constructor
  · intro h p hp c hc
    refine ⟨(noSpace_iff command hnames).mp h.noSpace p hp c hc, ?_⟩
    rintro rfl
    have hread : p ∈ readParameters (makeRequestFromParameters command.name iteration) :=
      h.parameters.mem_iff.mpr (hiteration.mem_iff.mp hp)
    exact not_mem_of_mem_readParameters hread hc
  · intro h
    have hspace := (noSpace_iff command hnames).mpr fun p hp c hc => (h p hp c hc).1
    obtain ⟨hline, hwords⟩ := requestLine_of_noSpace hspace
    refine ⟨hspace, hline, hwords, ?_⟩
    rw [readParameters_of_plain command hnames fun p hp hmem => (h p hp '&' hmem).2 rfl]
    exact hiteration

def Named (parameters : ParametersMap) : Prop := ∀ name ∈ parameters, ∃ s : Setting, name = s.parameter

theorem named_build {Call : Type} [ReadWriteBuilder Call]
    (hkey : ∀ c : Call, ∃ s : Setting, ReadWriteBuilder.key c = s.parameter) (calls : List Call) :
    Named (build calls) := by
  intro name hname
  obtain ⟨c, -, rfl⟩ := (LastWrite.mem_writeAll _ _ _ name).mp hname
  exact hkey c

theorem named_of_lawful {Call : Type} [ReadWriteBuilder Call] [LawfulBuilder Call]
    (calls : List Call) : Named (build calls) :=
  named_build (fun c => ⟨_, LawfulBuilder.key_eq c⟩) calls

theorem named_ethernet (calls : List Ethernet) : Named (build calls) := by
  apply named_build
  intro c
  by_cases hmode : ReadWriteBuilder.setting c = .ipMode
  · obtain ⟨mode, rfl⟩ := Ethernet.eq_withIpMode hmode
    exact ⟨.ipAddress, rfl⟩
  · exact ⟨_, Ethernet.key_eq_of_ne hmode⟩

theorem named_builder (builder : Builder) : Named builder.build := by
  cases builder with
  | ethernet calls => exact named_ethernet calls
  | basicInformation calls => exact named_of_lawful calls
  | measuring calls => exact named_of_lawful calls
  | hmiDisplay calls => exact named_of_lawful calls
  | handleTcp calls => exact named_of_lawful calls
  | handleUdp calls => exact named_of_lawful calls
  | lensContaminationMonitor calls => exact named_of_lawful calls

theorem named_chained (builders : List Builder) : Named (chained builders) := by
  induction builders using List.reverseRecOn with
  | nil => exact fun name hname => absurd hname (AList.notMem_empty name)
  | append_singleton builders builder ih =>
    intro name hname
    rw [chained, List.foldl_append] at hname
    rcases AList.mem_union.mp hname with hname | hname
    · exact ih name hname
    · exact named_builder builder name hname

theorem inner_of_named {parameters : ParametersMap} (h : Named parameters)
    {iteration : List (String × String)} (hiteration : parameters.Iterates iteration) :
    ∀ p ∈ iteration, InnerText p.1.toList := by
  intro p hp
  have hpair : (p.1, p.2) ∈ parameters.pairs := hiteration.mem_iff.mp hp
  have hlookup := ParametersMap.mem_pairs.mp hpair
  obtain ⟨s, hs⟩ := h p.1 (AList.lookup_isSome.mp (Option.isSome_of_eq_some hlookup))
  rw [hs]
  exact parameter_inner s

end R2000Driver.RequestLine

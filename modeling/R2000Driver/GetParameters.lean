import R2000Driver.Commands
import R2000Driver.ReadOnlyBuilders
import R2000Driver.RequestLine

/-!
# Requests for parameters

`GetParameters` sends the names of its builders joined with `;` and makes a map
of the values in the answer. The last separator is taken away with `pop_back`,
which has no defined result when there are no names. The map has one entry per
name, so the requests are answered when each method asks for its own parameter
(`answers_iff`).
-/

namespace R2000Driver.GetParameters
open Parameters ReadOnly Http RequestLine JoinedText PropertyTree TextStream

/-- `std::string::pop_back`, undefined on the empty string. -/
def popBack (text : List Char) : Option (List Char) :=
  if text.isEmpty then none else some text.dropLast

def chainAndConvertParametersToString (builders : List ReadOnly.Builder) :
    Option (List Char × ParametersList) := do
  let parameters := ReadOnly.chained builders
  let parametersAsString := parameters.foldl (fun text name => text ++ (name.toList ++ [';'])) []
  let parametersAsString ← popBack parametersAsString
  return (parametersAsString, parameters)

section
variable {Tree : Type} [PropertyTree Tree]

def extractParametersValues (list : ParametersList) (propertyTree : Tree) : ParametersMap :=
  list.foldl (fun keysValues name =>
    match getOptionalString propertyTree name with
    | none => keysValues.insertNew name ""
    | some value => keysValues.insertNew name value) ∅

structure Execution (Tree : Type) where
  request : List Char
  onComplete : DeviceAnswer Tree → RequestResult × ParametersMap

def asyncExecute (Tree : Type) [PropertyTree Tree] (builders : List ReadOnly.Builder) :
    Option (Execution Tree) := do
  let (chain, parameters) ← chainAndConvertParametersToString builders
  return {
    request := makeRequestFromParameters Command.getParameter.name [("list", String.ofList chain)]
    onComplete := fun result =>
      if result.requestResult ≠ .success then (result.requestResult, ∅)
      else (result.requestResult, extractParametersValues parameters result.propertyTree) }

def splitNames (chain : List Char) : ParametersList :=
  if chain = [] then [] else (chain.splitOn ';').map String.ofList

theorem names_separated : ∀ r ∈ Request.all,
    InnerText r.name.toList ∧ r.name ≠ "" ∧ ';' ∉ r.name.toList := by decide +kernel

theorem chained_separated {builders : List ReadOnly.Builder} {name : String}
    (h : name ∈ ReadOnly.chained builders) :
    InnerText name.toList ∧ name ≠ "" ∧ ';' ∉ name.toList := by
  rw [chained_eq] at h
  obtain ⟨r, -, rfl⟩ := List.mem_map.mp h
  exact names_separated r (Request.mem_all r)

theorem chain_of_no_requests {builders : List ReadOnly.Builder} (h : requests builders = []) :
    chainAndConvertParametersToString builders = none := by
  rw [chainAndConvertParametersToString, chained_eq, h]
  rfl

theorem chain_eq {builders : List ReadOnly.Builder} (h : requests builders ≠ []) :
    chainAndConvertParametersToString builders =
      some ([';'].intercalate ((ReadOnly.chained builders).map String.toList),
        ReadOnly.chained builders) := by
  have hnames : (ReadOnly.chained builders).map String.toList ≠ [] := by simp [chained_eq, h]
  have hjoined : (ReadOnly.chained builders).foldl
      (fun text name => text ++ (name.toList ++ [';'])) [] =
        joined ';' ((ReadOnly.chained builders).map String.toList) := by
    rw [List.foldl_append_eq_append, List.nil_append, ← List.flatMap_def, joined, List.flatMap_map]
  have hpop : popBack (joined ';' ((ReadOnly.chained builders).map String.toList)) =
      some ([';'].intercalate ((ReadOnly.chained builders).map String.toList)) := by
    rw [popBack, joined_eq ';' hnames]
    simp
  rw [chainAndConvertParametersToString, hjoined, hpop]
  rfl

theorem splitNames_chain {names : ParametersList} (h : names ≠ [])
    (hseparated : ∀ name ∈ names, name ≠ "" ∧ ';' ∉ name.toList) :
    splitNames ([';'].intercalate (names.map String.toList)) = names := by
  have hpieces : ∀ piece ∈ names.map String.toList, ';' ∉ piece := by
    intro piece hpiece
    obtain ⟨name, hname, rfl⟩ := List.mem_map.mp hpiece
    exact (hseparated name hname).2
  have hsplit := List.splitOn_intercalate ';' hpieces (by simp [h])
  have hne : [';'].intercalate (names.map String.toList) ≠ [] := by
    intro hnil
    rw [hnil, List.splitOn_nil] at hsplit
    have hmem : [] ∈ names.map String.toList := hsplit ▸ List.mem_singleton_self []
    obtain ⟨name, hname, hempty⟩ := List.mem_map.mp hmem
    exact (hseparated name hname).1 (String.toList_eq_nil_iff.mp hempty)
  rw [splitNames, if_neg hne, hsplit, List.map_map]
  have hback : ∀ name ∈ names, (String.ofList ∘ String.toList) name = id name :=
    fun name _ => String.ofList_toList
  rw [List.map_congr_left hback, List.map_id]

def listParameter (chain : List Char) : ParametersMap :=
  ParametersMap.assign ∅ "list" (String.ofList chain)

theorem request_carries_chain {chain : List Char}
    (hplain : ∀ c ∈ chain, isSpace c = false ∧ c ≠ '&') :
    Carries (makeRequestFromParameters Command.getParameter.name [("list", String.ofList chain)])
      (listParameter chain) := by
  have hiteration : (listParameter chain).Iterates [("list", String.ofList chain)] :=
    List.Perm.refl _
  have hinner : InnerText "list".toList := by decide
  apply (carries_iff .getParameter hiteration ?_).mpr
  · intro p hp c hc
    rw [List.mem_singleton] at hp
    rw [hp, String.toList_ofList] at hc
    exact hplain c hc
  · intro p hp
    rw [List.mem_singleton] at hp
    rw [hp]
    exact hinner

theorem chain_plain {builders : List ReadOnly.Builder} :
    ∀ c ∈ [';'].intercalate ((ReadOnly.chained builders).map String.toList),
      isSpace c = false ∧ c ≠ '&' := by
  intro c hc
  rcases mem_intercalate hc with rfl | ⟨piece, hpiece, hc⟩
  · decide
  · obtain ⟨name, hname, rfl⟩ := List.mem_map.mp hpiece
    obtain ⟨hspace, hamp, -⟩ := (chained_separated hname).1 c hc
    exact ⟨hspace, hamp⟩

theorem extract_concat (list : ParametersList) (last : String) (tree : Tree) :
    extractParametersValues (list ++ [last]) tree =
      (extractParametersValues list tree).insertNew last
        ((getOptionalString tree last).getD "") := by
  rw [extractParametersValues, List.foldl_append]
  cases hvalue : getOptionalString tree last <;>
    simp only [List.foldl_cons, List.foldl_nil, hvalue] <;> rfl

theorem mem_extract (list : ParametersList) (tree : Tree) (name : String) :
    name ∈ extractParametersValues list tree ↔ name ∈ list := by
  induction list using List.reverseRecOn with
  | nil => exact iff_of_false (AList.notMem_empty name) List.not_mem_nil
  | append_singleton list last ih =>
    rw [extract_concat, ParametersMap.mem_insertNew, ih, List.mem_append, List.mem_singleton,
      or_comm]

theorem lookup_extract (list : ParametersList) (tree : Tree) (name : String) :
    (extractParametersValues list tree).lookup name =
      if name ∈ list then some ((getOptionalString tree name).getD "") else none := by
  induction list using List.reverseRecOn with
  | nil => rfl
  | append_singleton list last ih =>
    simp only [extract_concat, ParametersMap.lookup_insertNew, mem_extract, ih, List.mem_append,
      List.mem_singleton]
    by_cases hname : name = last
    · subst hname
      by_cases hlist : name ∈ list <;> simp [hlist]
    · simp [hname]

/-- The names reach the device, and each method called has an entry of its own with the value of
its own parameter. -/
structure Answers (builders : List ReadOnly.Builder) (execution : Execution Tree) : Prop where
  sent : ∃ chain, Carries execution.request (listParameter chain) ∧
    splitNames chain = ReadOnly.chained builders
  values : ∀ tree : Tree, ∃ values, execution.onComplete ⟨.success, tree⟩ = (.success, values) ∧
    ∀ name text, values.lookup name = some text ↔
      ∃ r ∈ requests builders, r.parameter = name ∧ text = (getOptionalString tree name).getD ""
  ownEntries : ∀ r ∈ requests builders, ∀ s ∈ requests builders, r ≠ s → r.name ≠ s.name

theorem asyncExecute_eq {builders : List ReadOnly.Builder} (h : requests builders ≠ []) :
    ∃ execution, asyncExecute Tree builders = some execution ∧
      Carries execution.request
        (listParameter ([';'].intercalate ((ReadOnly.chained builders).map String.toList))) ∧
      ∀ tree : Tree, execution.onComplete ⟨.success, tree⟩ =
        (.success, extractParametersValues (ReadOnly.chained builders) tree) := by
  refine ⟨_, by rw [asyncExecute, chain_eq h]; rfl, ?_, ?_⟩
  · exact request_carries_chain chain_plain
  · intro tree
    rfl

theorem mem_chained_iff {builders : List ReadOnly.Builder}
    (hown : ∀ r ∈ requests builders, r.Own) (name : String) :
    name ∈ ReadOnly.chained builders ↔ ∃ r ∈ requests builders, r.parameter = name := by
  rw [chained_eq, List.mem_map]
  constructor
  · intro h
    obtain ⟨r, hr, rfl⟩ := h
    exact ⟨r, hr, ((Request.name_eq_parameter_iff r).mpr (hown r hr)).symm⟩
  · intro h
    obtain ⟨r, hr, rfl⟩ := h
    exact ⟨r, hr, (Request.name_eq_parameter_iff r).mpr (hown r hr)⟩

theorem answers_of_own {builders : List ReadOnly.Builder} (h : requests builders ≠ [])
    (hown : ∀ r ∈ requests builders, r.Own) :
    ∃ execution, asyncExecute Tree builders = some execution ∧ Answers builders execution := by
  obtain ⟨execution, hexecute, hcarries, hvalues⟩ := @asyncExecute_eq Tree _ builders h
  refine ⟨execution, hexecute, ⟨_, hcarries, ?_⟩, ?_, ?_⟩
  · apply splitNames_chain
    · simp [chained_eq, h]
    · exact fun name hname => (chained_separated hname).2
  · intro tree
    refine ⟨_, hvalues tree, ?_⟩
    intro name text
    rw [lookup_extract]
    by_cases hname : name ∈ ReadOnly.chained builders
    · obtain ⟨r, hr, hparameter⟩ := (mem_chained_iff hown name).mp hname
      rw [if_pos hname, Option.some.injEq]
      exact ⟨fun heq => ⟨r, hr, hparameter, heq.symm⟩, fun ⟨_, _, _, heq⟩ => heq.symm⟩
    · rw [if_neg hname]
      apply iff_of_false (by simp)
      intro hr
      obtain ⟨r, hr, hparameter, -⟩ := hr
      exact hname ((mem_chained_iff hown name).mpr ⟨r, hr, hparameter⟩)
  · intro r hr s hs hne hnames
    rw [(Request.name_eq_parameter_iff r).mpr (hown r hr),
      (Request.name_eq_parameter_iff s).mpr (hown s hs)] at hnames
    exact hne (Request.parameter_injective hnames)

theorem name_ne_angularResolution : ∀ r ∈ Request.all, r.name ≠ "angular_resolution" := by
  decide +kernel

theorem name_samplingRateMax : ∀ r ∈ Request.all, r.name = "sampling_rate_max" →
    r = .capabilities .requestAngularResolution := by
  decide +kernel

theorem exists_name_of_answers {builders : List ReadOnly.Builder} {execution : Execution Tree}
    (hexecute : asyncExecute Tree builders = some execution) (h : Answers builders execution)
    (hne : requests builders ≠ []) {r : Request} (hr : r ∈ requests builders) :
    ∃ s ∈ requests builders, s.name = r.parameter := by
  obtain ⟨execution', hexecute', -, hvalues⟩ := @asyncExecute_eq Tree _ builders hne
  cases Option.some.inj (hexecute.symm.trans hexecute')
  obtain ⟨values, hvalue, hlookup⟩ := h.values PropertyTree.empty
  have hentry := (hlookup r.parameter _).mpr ⟨r, hr, rfl, rfl⟩
  rw [hvalues] at hvalue
  cases hvalue
  have hmem := (mem_extract _ _ _).mp (AList.lookup_isSome.mp (Option.isSome_of_eq_some hentry))
  rwa [chained_eq, List.mem_map] at hmem

/-- All requests are answered exactly when there is one and every method called asks for its own
parameter. -/
theorem answers_iff (builders : List ReadOnly.Builder) :
    (∃ execution, asyncExecute Tree builders = some execution ∧ Answers builders execution) ↔
      requests builders ≠ [] ∧ ∀ r ∈ requests builders, r.Own := by
  constructor
  · intro h
    obtain ⟨execution, hexecute, h⟩ := h
    have hne : requests builders ≠ [] := by
      intro hnil
      rw [asyncExecute, chain_of_no_requests hnil] at hexecute
      cases hexecute
    have hresolution : .capabilities .requestAngularResolution ∉ requests builders := by
      intro hr
      obtain ⟨s, -, hname⟩ := exists_name_of_answers hexecute h hne hr
      exact name_ne_angularResolution s (Request.mem_all s) hname
    refine ⟨hne, ?_⟩
    intro r hr
    refine ⟨fun heq => hresolution (heq ▸ hr), ?_⟩
    rintro rfl
    obtain ⟨s, hs, hname⟩ := exists_name_of_answers hexecute h hne hr
    exact hresolution (name_samplingRateMax s (Request.mem_all s) hname ▸ hs)
  · intro h
    exact answers_of_own h.1 h.2

end

open Commands

def capabilitiesTree : JsonTree :=
  .node "" [("angular_fov", .node "360.0" []), ("sampling_rate_max", .node "252000" [])]

def twoRequests : List ReadOnly.Builder :=
  [.capabilities [.requestAngularFov, .requestMaximalSamplingRate]]

theorem two_requests_share_an_entry :
    ReadOnly.chained twoRequests = ["angular_fov", "angular_fov"] ∧
      (extractParametersValues (ReadOnly.chained twoRequests) capabilitiesTree).entries =
        [⟨"angular_fov", "360.0"⟩] ∧
      (asyncExecute JsonTree []).isNone = true ∧
      (¬ ∃ execution, asyncExecute JsonTree twoRequests = some execution ∧
        Answers twoRequests execution) ∧
      ¬ ∃ execution, asyncExecute JsonTree [] = some execution ∧ Answers [] execution := by
  refine ⟨by decide, by rfl, rfl, ?_, ?_⟩
  · intro h
    obtain ⟨execution, -, h⟩ := h
    have hne := h.ownEntries (.capabilities .requestAngularFov) (by decide)
      (.capabilities .requestMaximalSamplingRate) (by decide) (by decide)
    exact hne rfl
  · intro h
    obtain ⟨execution, hexecute, -⟩ := h
    cases hexecute

end R2000Driver.GetParameters

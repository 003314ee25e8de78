import R2000Driver.Commands
import R2000Driver.RequestLine

/-!
# The configuration of a scan output

`GetScanOutputConfig` walks the children of the reply, takes the string of each
child as a name, and looks this name up in the same tree; the first name that is
not found ends the walk. So the keys of the map are values of the reply, and the
map is the reply exactly if the values are the keys in some order
(`whole_configuration_iff`).
-/

namespace R2000Driver.ScanOutputConfig
open Commands Http Parameters RequestLine PropertyTree ChildTree

section
variable {Tree : Type} [ChildTree Tree]

def collect (propertyTree : Tree) (scanOutputConfig : ParametersMap) :
    List (String × Tree) → Throwing ParametersMap
  | [] => .ok scanOutputConfig
  | name :: children => do
    -- The second component of a child is its tree, not its key.
    let parameterName ← getString name.2 ""
    match getOptionalString propertyTree parameterName with
    | none => return scanOutputConfig
    | some value => collect propertyTree (scanOutputConfig.insertNew parameterName value) children

def getScanOutputConfig (propertyTree : Tree) : Throwing ParametersMap :=
  collect propertyTree ∅ (children propertyTree)

def onComplete (result : DeviceAnswer Tree) : Throwing (RequestResult × Option ParametersMap) :=
  if result.requestResult ≠ .success then .ok (result.requestResult, none)
  else do
    let scanOutputConfig ← getScanOutputConfig result.propertyTree
    return (result.requestResult, some scanOutputConfig)

/-- An accepted command, as a future or as a callback: the device answers the request. -/
def asyncExecute (device : List Char → Reply Tree) (handle : String) :
    Throwing (RequestResult × Option ParametersMap) :=
  asyncSendHttpCommand
    (device (makeRequestFromParameters Command.getScanOutputConfig.name [("handle", handle)])) onComplete

def collected (propertyTree : Tree) (scanOutputConfig : ParametersMap) : List String → ParametersMap
  | [] => scanOutputConfig
  | parameterName :: names =>
    match getOptionalString propertyTree parameterName with
    | none => scanOutputConfig
    | some value => collected propertyTree (scanOutputConfig.insertNew parameterName value) names

theorem collect_eq (tree : Tree) (scanOutputConfig : ParametersMap) {list : List (String × Tree)}
    {names : List String}
    (h : list.map (fun child => getOptionalString child.2 "") = names.map some) :
    collect tree scanOutputConfig list = .ok (collected tree scanOutputConfig names) := by
  induction list generalizing scanOutputConfig names with
  | nil =>
    cases names with
    | nil => rfl
    | cons name names => cases h
  | cons child list ih =>
    cases names with
    | nil => cases h
    | cons name names =>
      obtain ⟨hchild, hlist⟩ := List.cons.inj h
      have hchild' : getOptionalString child.2 "" = some name := hchild
      have hstring : getString child.2 "" = .ok name := by rw [getString, hchild']
      rw [collect, hstring, collected]
      change (match getOptionalString tree name with
        | none => (.ok scanOutputConfig : Throwing ParametersMap)
        | some value => collect tree (scanOutputConfig.insertNew name value) list) = _
      cases getOptionalString tree name with
      | none => rfl
      | some value => exact ih _ hlist

theorem lookup_collected {tree : Tree} {scanOutputConfig : ParametersMap} {names : List String}
    {name value : String} (h : (collected tree scanOutputConfig names).lookup name = some value) :
    scanOutputConfig.lookup name = some value ∨
      name ∈ names ∧ getOptionalString tree name = some value := by
  induction names generalizing scanOutputConfig with
  | nil => exact Or.inl h
  | cons parameterName names ih =>
    rw [collected] at h
    cases hfound : getOptionalString tree parameterName with
    | none =>
      rw [hfound] at h
      exact Or.inl h
    | some found =>
      rw [hfound] at h
      rcases ih h with hold | ⟨hname, hvalue⟩
      · rw [ParametersMap.lookup_insertNew] at hold
        split_ifs at hold with hnew
        · obtain ⟨rfl, -⟩ := hnew
          exact Or.inr ⟨List.mem_cons_self, hfound.trans hold⟩
        · exact Or.inl hold
      · exact Or.inr ⟨List.mem_cons_of_mem _ hname, hvalue⟩

theorem lookup_collected_of_found {tree : Tree} {scanOutputConfig : ParametersMap}
    {names : List String} (hfound : ∀ name ∈ names, (getOptionalString tree name).isSome = true)
    (name : String) :
    (collected tree scanOutputConfig names).lookup name =
      (scanOutputConfig.lookup name).or
        (if name ∈ names then getOptionalString tree name else none) := by
  induction names generalizing scanOutputConfig with
  | nil => simp [collected]
  | cons parameterName names ih =>
    obtain ⟨value, hvalue⟩ := Option.isSome_iff_exists.mp (hfound parameterName List.mem_cons_self)
    rw [collected, hvalue]
    change (collected tree (scanOutputConfig.insertNew parameterName value) names).lookup name = _
    rw [ih fun n hn => hfound n (List.mem_cons_of_mem _ hn), ParametersMap.lookup_insertNew]
    by_cases hname : name = parameterName
    · subst hname
      by_cases hmem : name ∈ scanOutputConfig
      · obtain ⟨old, hold⟩ := Option.isSome_iff_exists.mp (AList.lookup_isSome.mpr hmem)
        simp [hmem, hold]
      · simp [hmem, hvalue, AList.lookup_eq_none.mpr hmem]
    · simp [hname]

/-- A key without the separator is the path of the first child of this name. -/
class LawfulPaths (Tree : Type) [ChildTree Tree] : Prop where
  getOptionalString_key : ∀ (tree : Tree) {key : String}, key ≠ "" → '.' ∉ key.toList →
    getOptionalString tree key =
      ((children tree).lookup key).bind fun child => getOptionalString child ""

structure FlatObject (tree : Tree) (entries : List (String × String)) : Prop where
  object : getOptionalString tree "" = some ""
  values : (children tree).map (fun child => (child.1, getOptionalString child.2 "")) =
    entries.map fun entry => (entry.1, some entry.2)
  scalars : ∀ child ∈ children tree, children child.2 = []
  keys_nodup : (entries.map Prod.fst).Nodup
  keys_noDot : ∀ entry ∈ entries, '.' ∉ entry.1.toList

/-- The values are the keys in some order, and an empty key has the empty value. -/
def KeysRearranged (entries : List (String × String)) : Prop :=
  (entries.map Prod.snd).Perm (entries.map Prod.fst) ∧ ∀ value, ("", value) ∈ entries → value = ""

def DeliversWhole (outcome : Throwing (RequestResult × Option ParametersMap))
    (entries : List (String × String)) : Prop :=
  ∃ config, outcome = .ok (.success, some config) ∧
    ∀ name value, config.lookup name = some value ↔ (name, value) ∈ entries

theorem lookup_bind_of_mem {α : Type} {list : List (String × α)} {entries : List (String × String)}
    {text : α → Option String} {key value : String}
    (h : list.map (fun child => (child.1, text child.2)) =
      entries.map fun entry => (entry.1, some entry.2))
    (hkeys : (entries.map Prod.fst).Nodup) (hmem : (key, value) ∈ entries) :
    (list.lookup key).bind text = some value := by
  induction list generalizing entries with
  | nil =>
    cases entries with
    | nil => cases hmem
    | cons entry entries => cases h
  | cons child list ih =>
    cases entries with
    | nil => cases h
    | cons entry entries =>
      obtain ⟨hchild, hlist⟩ := List.cons.inj h
      obtain ⟨hname, htext⟩ := Prod.mk.inj hchild
      obtain ⟨hnew, hrest⟩ := List.nodup_cons.mp hkeys
      rcases List.mem_cons.mp hmem with rfl | hmem
      · rw [List.lookup_cons, hname, beq_self_eq_true]
        exact htext
      · have hkey : (key == child.1) = false := by
          rw [beq_eq_false_iff_ne, hname]
          intro heq
          exact hnew (List.mem_map.mpr ⟨(key, value), hmem, heq⟩)
        rw [List.lookup_cons, hkey]
        exact ih hlist hrest hmem

namespace FlatObject
variable {tree : Tree} {entries : List (String × String)}

theorem getOptionalString_key [LawfulPaths Tree] (hflat : FlatObject tree entries)
    {key value : String} (hmem : (key, value) ∈ entries) (hkey : key ≠ "") :
    getOptionalString tree key = some value := by
  rw [LawfulPaths.getOptionalString_key tree hkey (hflat.keys_noDot _ hmem)]
  exact lookup_bind_of_mem hflat.values hflat.keys_nodup hmem

theorem strings (hflat : FlatObject tree entries) :
    (children tree).map (fun child => getOptionalString child.2 "") =
      (entries.map Prod.snd).map some := by
  have h := congrArg (List.map Prod.snd) hflat.values
  rw [List.map_map, List.map_map] at h
  rw [List.map_map]
  exact h

theorem getScanOutputConfig_eq (hflat : FlatObject tree entries) :
    getScanOutputConfig tree = .ok (collected tree ∅ (entries.map Prod.snd)) :=
  collect_eq tree ∅ hflat.strings

theorem keysRearranged (hflat : FlatObject tree entries)
    (hall : ∀ name value, (name, value) ∈ entries →
      (collected tree ∅ (entries.map Prod.snd)).lookup name = some value) :
    KeysRearranged entries := by
  have hentry : ∀ name value, (name, value) ∈ entries →
      name ∈ entries.map Prod.snd ∧ getOptionalString tree name = some value := by
    intro name value hmem
    rcases lookup_collected (hall name value hmem) with hold | hnew
    · rw [AList.lookup_empty] at hold
      cases hold
    · exact hnew
  have hsubset : entries.map Prod.fst ⊆ entries.map Prod.snd := by
    intro name hname
    obtain ⟨entry, hmem, rfl⟩ := List.mem_map.mp hname
    exact (hentry entry.1 entry.2 hmem).1
  have hlength : (entries.map Prod.snd).length ≤ (entries.map Prod.fst).length := by
    rw [List.length_map, List.length_map]
  refine ⟨((List.subperm_of_subset hflat.keys_nodup hsubset).perm_of_length_le hlength).symm, ?_⟩
  intro value hmem
  have hself := (hentry "" value hmem).2
  rw [hflat.object] at hself
  exact (Option.some.inj hself).symm

theorem getOptionalString_of_rearranged [LawfulPaths Tree] (hflat : FlatObject tree entries)
    (hkeys : KeysRearranged entries) {name value : String} (hmem : (name, value) ∈ entries) :
    getOptionalString tree name = some value := by
  by_cases hname : name = ""
  · subst hname
    rw [hkeys.2 value hmem]
    exact hflat.object
  · exact hflat.getOptionalString_key hmem hname

theorem lookup_of_rearranged [LawfulPaths Tree] (hflat : FlatObject tree entries)
    (hkeys : KeysRearranged entries) (name value : String) :
    (collected tree ∅ (entries.map Prod.snd)).lookup name = some value ↔
      (name, value) ∈ entries := by
  have hentry : ∀ key ∈ entries.map Prod.snd, ∃ found, (key, found) ∈ entries := by
    intro key hkey
    obtain ⟨entry, hmem, rfl⟩ := List.mem_map.mp (hkeys.1.subset hkey)
    exact ⟨entry.2, hmem⟩
  have hfound : ∀ key ∈ entries.map Prod.snd, (getOptionalString tree key).isSome = true := by
    intro key hkey
    obtain ⟨found, hmem⟩ := hentry key hkey
    rw [hflat.getOptionalString_of_rearranged hkeys hmem]
    rfl
  rw [lookup_collected_of_found hfound, AList.lookup_empty, Option.none_or]
  constructor
  · intro h
    split_ifs at h with hname
    obtain ⟨found, hmem⟩ := hentry name hname
    rw [hflat.getOptionalString_of_rearranged hkeys hmem] at h
    rwa [← Option.some.inj h]
  · intro hmem
    have hname : name ∈ entries.map Prod.snd :=
      hkeys.1.symm.subset (List.mem_map.mpr ⟨(name, value), hmem, rfl⟩)
    rw [if_pos hname, hflat.getOptionalString_of_rearranged hkeys hmem]

end FlatObject

theorem asyncExecute_success {device : List Char → Reply Tree} {handle : String} {tree : Tree}
    {config : ParametersMap}
    (hreply : device (makeRequestFromParameters Command.getScanOutputConfig.name
      [("handle", handle)]) = .ok ⟨.success, tree⟩)
    (hconfig : getScanOutputConfig tree = .ok config) :
    asyncExecute device handle = .ok (.success, some config) := by
  have hcomplete : onComplete (⟨.success, tree⟩ : DeviceAnswer Tree) =
      .ok (.success, some config) := by
    rw [onComplete, if_neg (not_not.mpr rfl), hconfig]
    rfl
  rw [asyncExecute, hreply, asyncSendHttpCommand, hcomplete]

/-- The map is the reply exactly when the values of the reply are its keys. -/
theorem whole_configuration_iff [LawfulPaths Tree] {device : List Char → Reply Tree}
    {handle : String} {tree : Tree} {entries : List (String × String)}
    (hreply : device (makeRequestFromParameters Command.getScanOutputConfig.name
      [("handle", handle)]) = .ok ⟨.success, tree⟩)
    (hflat : FlatObject tree entries) :
    DeliversWhole (asyncExecute device handle) entries ↔ KeysRearranged entries := by
  have hexecute := asyncExecute_success hreply hflat.getScanOutputConfig_eq
  constructor
  · rintro ⟨config, hconfig, hentries⟩
    rw [hexecute] at hconfig
    cases hconfig
    exact hflat.keysRearranged fun name value hmem => (hentries name value).mpr hmem
  · intro hkeys
    exact ⟨_, hexecute, hflat.lookup_of_rearranged hkeys⟩

end

section Reply

instance : LawfulPaths JsonTree where
  getOptionalString_key tree key hkey _ := by
    change (tree.child key).map JsonTree.data =
      (tree.entries.lookup key).bind fun child => (child.child "").map JsonTree.data
    rw [JsonTree.child, if_neg hkey]
    cases tree.entries.lookup key with
    | none => rfl
    | some child => rfl

def scanOutputEntries : List (String × String) :=
  [("error_code", "0"), ("error_text", "success"), ("address", "192.168.0.20")]

def scanOutputTree : JsonTree :=
  .node "" (scanOutputEntries.map fun entry => (entry.1, .node entry.2 []))

theorem scanOutputTree_flat : FlatObject scanOutputTree scanOutputEntries where
  object := rfl
  values := rfl
  scalars := by
    intro child hchild
    obtain ⟨entry, -, rfl⟩ := List.mem_map.mp hchild
    rfl
  keys_nodup := by decide
  keys_noDot := by decide

theorem not_keysRearranged : ¬ KeysRearranged scanOutputEntries := by
  rintro ⟨hperm, -⟩
  have hmem : "0" ∈ scanOutputEntries.map Prod.fst := hperm.subset (by decide)
  exact absurd hmem (by decide)

theorem whole_configuration_iff_address :
    DeliversWhole (asyncExecute (fun _ => .ok ⟨.success, scanOutputTree⟩) "s10")
      scanOutputEntries ↔ KeysRearranged scanOutputEntries :=
  whole_configuration_iff rfl scanOutputTree_flat

theorem address_not_delivered :
    ¬ ∀ (Tree : Type) [ChildTree Tree] [LawfulPaths Tree] (device : List Char → Reply Tree)
      (handle : String) (tree : Tree) (entries : List (String × String)),
      device (makeRequestFromParameters Command.getScanOutputConfig.name [("handle", handle)]) =
        .ok ⟨.success, tree⟩ →
      verifyErrorCode tree = true → FlatObject tree entries →
      DeliversWhole (asyncExecute device handle) entries := by
  intro hclaim
  have hverified : verifyErrorCode scanOutputTree = true := by rfl
  obtain ⟨config, hconfig, hentries⟩ := hclaim JsonTree (fun _ => .ok ⟨.success, scanOutputTree⟩)
    "s10" scanOutputTree scanOutputEntries rfl hverified scanOutputTree_flat
  rw [asyncExecute_success rfl scanOutputTree_flat.getScanOutputConfig_eq] at hconfig
  cases hconfig
  exact not_keysRearranged
    (scanOutputTree_flat.keysRearranged fun name value hmem => (hentries name value).mpr hmem)

end Reply

end R2000Driver.ScanOutputConfig

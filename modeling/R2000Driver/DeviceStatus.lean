import R2000Driver.GetParameters

/-!
# Reading a received status

A poll of the status watcher leaves a text for each of the ten parameters, the
empty one when the device did not send it. So the optional of a getter is never
empty, and each getter runs `std::stoul` on the text. Nine of them catch what it
throws, `getStatusFlags` does not. And `std::stoul` also reads a number that
follows blanks, is followed by other characters or is negative. A status is read
as it was sent when no text is of these kinds (`reads_status_iff`).
-/

namespace R2000Driver
open Commands GetParameters Parameters ReadOnly Http TextStream PropertyTree

structure StatusFlagInterpreter where
  flags : UInt32
  deriving DecidableEq, Repr

/-- `std::numeric_limits<T>::quiet_NaN()` is zero for an integer type. -/
def QuietCastOptionalHelper.uint64 : Option String → Throwing UInt64
  | some text => stoul text
  | none => .ok 0

def QuietCastOptionalHelper.uint32 : Option String → Throwing UInt32
  | some text => (stoul text).map UInt64.toUInt32
  | none => .ok 0

structure DeviceStatus where
  systemStatusMap : ParametersMap

namespace DeviceStatus

def parameterStatusFlags : String := "status_flags"
def parameterStatusLoadIndication : String := "load_indication"
def parameterStatusSystemTimeRaw : String := "system_time_raw"
def parameterStatusUpTime : String := "up_time"
def parameterStatusPowerCycles : String := "power_cycles"
def parameterStatusOperationTime : String := "operation_time"
def parameterStatusOperationTimeScaled : String := "operation_time_scaled"
def parameterStatusTemperatureCurrent : String := "temperature_current"
def parameterStatusTemperatureMin : String := "temperature_min"
def parameterStatusTemperatureMax : String := "temperature_max"

def getOptionalFromParameters (parameters : ParametersMap) (key : String) : Option String :=
  parameters.lookup key

def getStatusFlags (status : DeviceStatus) : Throwing StatusFlagInterpreter :=
  match getOptionalFromParameters status.systemStatusMap parameterStatusFlags with
  -- The only getter without a handler.
  | some text => (QuietCastOptionalHelper.uint32 (some text)).map StatusFlagInterpreter.mk
  | none => .ok ⟨0x00000000⟩

/-- The body of the other getters, with its two handlers. -/
def castOr (status : DeviceStatus) (key : String) (otherwise : UInt64) : Throwing UInt64 :=
  match QuietCastOptionalHelper.uint64 (getOptionalFromParameters status.systemStatusMap key) with
  | .error .invalidArgument => .ok otherwise
  | .error .outOfRange => .ok otherwise
  | outcome => outcome

def getCpuLoad (status : DeviceStatus) : UInt64 → Throwing UInt64 :=
  status.castOr parameterStatusLoadIndication

def getRawSystemTime (status : DeviceStatus) : UInt64 → Throwing UInt64 :=
  status.castOr parameterStatusSystemTimeRaw

def getUptime (status : DeviceStatus) : UInt64 → Throwing UInt64 :=
  status.castOr parameterStatusUpTime

def getPowerCyclesCount (status : DeviceStatus) : UInt64 → Throwing UInt64 :=
  status.castOr parameterStatusPowerCycles

def getOperationTime (status : DeviceStatus) : UInt64 → Throwing UInt64 :=
  status.castOr parameterStatusOperationTime

def getScaledOperationTime (status : DeviceStatus) : UInt64 → Throwing UInt64 :=
  status.castOr parameterStatusOperationTimeScaled

def getCurrentTemperature (status : DeviceStatus) : UInt64 → Throwing UInt64 :=
  status.castOr parameterStatusTemperatureCurrent

def getMinimalTemperature (status : DeviceStatus) : UInt64 → Throwing UInt64 :=
  status.castOr parameterStatusTemperatureMin

def getMaximalTemperature (status : DeviceStatus) : UInt64 → Throwing UInt64 :=
  status.castOr parameterStatusTemperatureMax

def numericGetters : List (SystemStatus × (DeviceStatus → UInt64 → Throwing UInt64)) :=
  [(.requestLoadIndication, getCpuLoad), (.requestSystemTimeRaw, getRawSystemTime),
    (.requestUpTime, getUptime), (.requestPowerCycles, getPowerCyclesCount),
    (.requestOperationTime, getOperationTime),
    (.requestOperationTimeScaled, getScaledOperationTime),
    (.requestCurrentTemperature, getCurrentTemperature),
    (.requestMinimalTemperature, getMinimalTemperature),
    (.requestMaximalTemperature, getMaximalTemperature)]

def systemStatus : ReadOnly.Builder :=
  .systemStatus [.requestLoadIndication, .requestSystemTimeRaw, .requestUpTime,
    .requestPowerCycles, .requestOperationTime, .requestOperationTimeScaled,
    .requestCurrentTemperature, .requestMinimalTemperature, .requestMaximalTemperature,
    .requestStatusFlags]

def sent (bits : ℕ) (text : String) : Option ℕ :=
  (decimal text).bind fun value =>
    if 0 ≤ value ∧ value.toNat < 2 ^ bits then some value.toNat else none

def leadingDigits (text : String) : List Char :=
  (withoutSign (text.toList.dropWhile isSpace)).takeWhile Char.isDigit

def NoNumber (text : String) : Prop :=
  leadingDigits text = [] ∨ 2 ^ 64 ≤ digitsValue (leadingDigits text)

/-- The text is a number of 64 bits, or does not begin with one. -/
def NumberReadable (text : String) : Prop := (sent 64 text).isSome = true ∨ NoNumber text

/-- The text is a number of 32 bits, or begins with one of 64 bits that is zero in 32 bits. -/
def FlagsReadable (text : String) : Prop :=
  (sent 32 text).isSome = true ∨
    ¬ NoNumber text ∧ 2 ^ 32 ∣ digitsValue (leadingDigits text)

theorem decimal_eq_some {text : String} {value : ℤ} (h : decimal text = some value) :
    text.toList.dropWhile isSpace = text.toList ∧
      leadingDigits text ≠ [] ∧
      value = if text.toList.head? = some '-' then -(digitsValue (leadingDigits text) : ℤ)
        else digitsValue (leadingDigits text) := by
  simp only [decimal] at h
  split at h
  · cases h
  · next hdecimal =>
    rw [Bool.or_eq_true, not_or, List.isEmpty_iff, Bool.not_eq_true', Bool.not_eq_false,
      List.all_eq_true] at hdecimal
    obtain ⟨hne, hdigits⟩ := hdecimal
    obtain ⟨d, rest, hcons⟩ := List.exists_cons_of_ne_nil hne
    have hd : d.isDigit = true := hdigits d (hcons ▸ List.mem_cons_self)
    have hstart := dropWhile_of_withoutSign hcons hd
    have hleading : leadingDigits text = withoutSign text.toList := by
      rw [leadingDigits, hstart]
      exact List.takeWhile_eq_self_iff.mpr hdigits
    rw [hleading]
    refine ⟨hstart, hne, ?_⟩
    split_ifs at h ⊢ with hminus
    · exact (Option.some.inj h).symm
    · exact (Option.some.inj h).symm

theorem sent_eq_some {bits n : ℕ} {text : String} (h : sent bits text = some n) :
    text.toList.dropWhile isSpace = text.toList ∧ leadingDigits text ≠ [] ∧ n < 2 ^ bits ∧
      digitsValue (leadingDigits text) = n ∧ (text.toList.head? = some '-' → n = 0) := by
  obtain ⟨value, hdecimal, hvalue⟩ := Option.bind_eq_some_iff.mp h
  obtain ⟨hstart, hne, heq⟩ := decimal_eq_some hdecimal
  split_ifs at hvalue with hrange
  have hn : value.toNat = n := Option.some.inj hvalue
  have hcast : (value.toNat : ℤ) = value := Int.toNat_of_nonneg hrange.1
  refine ⟨hstart, hne, hn ▸ hrange.2, ?_, ?_⟩
  · split_ifs at heq <;> omega
  · intro hminus
    rw [if_pos hminus] at heq
    omega

theorem stoul_of_noNumber {text : String} (h : NoNumber text) :
    stoul text = .error .invalidArgument ∨ stoul text = .error .outOfRange := by
  by_cases hempty : leadingDigits text = []
  · left
    rw [stoul]
    exact if_pos (List.isEmpty_iff.mpr hempty)
  · right
    rw [stoul]
    refine (if_neg ?_).trans (if_pos (h.resolve_left hempty))
    rw [List.isEmpty_iff]
    exact hempty

theorem stoul_of_number {text : String} (h : ¬ NoNumber text) :
    stoul text = .ok (if (text.toList.dropWhile isSpace).head? = some '-' then
      -UInt64.ofNat (digitsValue (leadingDigits text))
      else UInt64.ofNat (digitsValue (leadingDigits text))) := by
  obtain ⟨hne, hvalue⟩ := not_or.mp h
  rw [stoul]
  refine (if_neg ?_).trans ((if_neg hvalue).trans ?_)
  · rw [List.isEmpty_iff]
    exact hne
  · exact (apply_ite Except.ok _ _ _).symm

theorem stoul_of_sent {bits n : ℕ} {text : String} (hbits : bits ≤ 64)
    (h : sent bits text = some n) : stoul text = .ok (UInt64.ofNat n) := by
  obtain ⟨hstart, hne, hn, hvalue, hminus⟩ := sent_eq_some h
  have hnumber : ¬ NoNumber text := by
    rintro (hempty | hlarge)
    · exact hne hempty
    · have hpow : 2 ^ bits ≤ 2 ^ 64 := Nat.pow_le_pow_right (by decide) hbits
      omega
  rw [stoul_of_number hnumber, hstart, hvalue]
  split_ifs with hsign
  · rw [hminus hsign]
    rfl
  · rfl

section
variable {status : DeviceStatus} {key text : String}

theorem castOr_eq (htext : status.systemStatusMap.lookup key = some text) (otherwise : UInt64) :
    status.castOr key otherwise =
      match stoul text with
      | .error .invalidArgument => .ok otherwise
      | .error .outOfRange => .ok otherwise
      | outcome => outcome := by
  rw [castOr, getOptionalFromParameters, htext, QuietCastOptionalHelper.uint64]

theorem castOr_of_noNumber (htext : status.systemStatusMap.lookup key = some text)
    (h : NoNumber text) (otherwise : UInt64) : status.castOr key otherwise = .ok otherwise := by
  rcases stoul_of_noNumber h with herror | herror
  · rw [castOr_eq htext, herror]
  · rw [castOr_eq htext, herror]

theorem castOr_of_number (htext : status.systemStatusMap.lookup key = some text) {value : UInt64}
    (h : stoul text = .ok value) (otherwise : UInt64) :
    status.castOr key otherwise = .ok value := by
  rw [castOr_eq htext, h]

theorem castOr_iff (htext : status.systemStatusMap.lookup key = some text) :
    (∀ otherwise, status.castOr key otherwise =
      .ok (((sent 64 text).map UInt64.ofNat).getD otherwise)) ↔ NumberReadable text := by
  cases hsent : sent 64 text with
  | some n =>
    have hreadable : NumberReadable text := Or.inl (Option.isSome_of_eq_some hsent)
    have hvalue := stoul_of_sent (Nat.le_refl 64) hsent
    exact iff_of_true (castOr_of_number htext hvalue) hreadable
  | none =>
    constructor
    · intro h
      by_contra hreadable
      have hnumber : ¬ NoNumber text := fun hnone => hreadable (Or.inr hnone)
      have hvalue := castOr_of_number htext (stoul_of_number hnumber)
      have hzero := (hvalue 0).symm.trans (h 0)
      have hone := (hvalue 1).symm.trans (h 1)
      exact absurd (Except.ok.inj (hzero.symm.trans hone)) (by decide)
    · intro h otherwise
      rcases h with hsome | hnone
      · rw [hsent] at hsome
        cases hsome
      · exact castOr_of_noNumber htext hnone otherwise

theorem getStatusFlags_eq (htext : status.systemStatusMap.lookup parameterStatusFlags = some text) :
    status.getStatusFlags = (stoul text).map fun value => ⟨value.toUInt32⟩ := by
  rw [getStatusFlags, getOptionalFromParameters, htext]
  change ((stoul text).map UInt64.toUInt32).map StatusFlagInterpreter.mk = _
  cases stoul text with
  | error e => rfl
  | ok value => rfl

theorem toUInt32_eq_zero_iff (minus : Prop) [Decidable minus] (n : ℕ) :
    (if minus then -UInt64.ofNat n else UInt64.ofNat n).toUInt32 = 0 ↔ 2 ^ 32 ∣ n := by
  have hn : UInt32.ofNat n = 0 ↔ 2 ^ 32 ∣ n := by
    rw [← UInt32.toNat_inj, UInt32.toNat_ofNat', Nat.dvd_iff_mod_eq_zero]
    rfl
  split_ifs
  · rw [UInt64.toUInt32_neg, UInt64.toUInt32_ofNat', ← hn]
    exact not_iff_not.mp UInt32.neg_ne_zero
  · rw [UInt64.toUInt32_ofNat', hn]

theorem getStatusFlags_iff (htext : status.systemStatusMap.lookup parameterStatusFlags = some text) :
    status.getStatusFlags = .ok ⟨UInt32.ofNat ((sent 32 text).getD 0)⟩ ↔ FlagsReadable text := by
  rw [getStatusFlags_eq htext]
  cases hsent : sent 32 text with
  | some n =>
    have hreadable : FlagsReadable text := Or.inl (Option.isSome_of_eq_some hsent)
    refine iff_of_true ?_ hreadable
    rw [stoul_of_sent (by decide) hsent, Except.map, UInt64.toUInt32_ofNat']
    rfl
  | none =>
    by_cases hnone : NoNumber text
    · have hreadable : ¬ FlagsReadable text := by
        rintro (hsome | ⟨hnumber, -⟩)
        · rw [hsent] at hsome
          cases hsome
        · exact hnumber hnone
      refine iff_of_false ?_ hreadable
      rcases stoul_of_noNumber hnone with herror | herror
      · rw [herror]
        intro h
        cases h
      · rw [herror]
        intro h
        cases h
    · have hflags : FlagsReadable text ↔ 2 ^ 32 ∣ digitsValue (leadingDigits text) := by
        simp [FlagsReadable, hsent, hnone]
      rw [hflags, ← toUInt32_eq_zero_iff ((text.toList.dropWhile isSpace).head? = some '-'),
        stoul_of_number hnone, Except.map]
      constructor
      · intro h
        exact congrArg StatusFlagInterpreter.flags (Except.ok.inj h)
      · intro h
        rw [h]
        rfl

end

section
variable {Tree : Type} [PropertyTree Tree]

def ofPoll (tree : Tree) : Option DeviceStatus := do
  let execution ← GetParameters.asyncExecute Tree [systemStatus]
  return ⟨(execution.onComplete ⟨.success, tree⟩).2⟩

def received (tree : Tree) (request : SystemStatus) : String :=
  (getOptionalString tree request.name).getD ""

def ReadsStatus (tree : Tree) : Prop :=
  ∃ status, ofPoll tree = some status ∧
    status.getStatusFlags =
      .ok ⟨UInt32.ofNat ((sent 32 (received tree .requestStatusFlags)).getD 0)⟩ ∧
    ∀ getter ∈ numericGetters, ∀ otherwise, getter.2 status otherwise =
      .ok (((sent 64 (received tree getter.1)).map UInt64.ofNat).getD otherwise)

theorem ofPoll_eq (tree : Tree) :
    ofPoll tree = some ⟨extractParametersValues (ReadOnly.chained [systemStatus]) tree⟩ := by
  obtain ⟨execution, hexecute, -, hcomplete⟩ :=
    @asyncExecute_eq Tree _ [systemStatus] (List.cons_ne_nil _ _)
  rw [ofPoll, hexecute]
  change some (DeviceStatus.mk (execution.onComplete ⟨.success, tree⟩).2) = _
  rw [hcomplete]

theorem lookup_received {tree : Tree} {status : DeviceStatus} (hstatus : ofPoll tree = some status)
    (request : SystemStatus) :
    status.systemStatusMap.lookup request.name = some (received tree request) := by
  rw [ofPoll_eq] at hstatus
  cases hstatus
  have hmem : request.name ∈ ReadOnly.chained [systemStatus] := by
    cases request <;> decide
  rw [lookup_extract, if_pos hmem, received]

theorem numericGetters_eq : ∀ getter ∈ numericGetters,
    getter.2 = fun status => status.castOr getter.1.name := by
  intro getter hgetter
  simp only [numericGetters, List.mem_cons, List.not_mem_nil, or_false] at hgetter
  rcases hgetter with rfl | rfl | rfl | rfl | rfl | rfl | rfl | rfl | rfl <;> rfl

theorem mem_numericGetters_iff (request : SystemStatus) :
    request ∈ numericGetters.map Prod.fst ↔ request ≠ .requestStatusFlags := by
  cases request <;> decide

/-- A status is read as it was sent exactly when each text is a number of its type or does not
begin with one; the flags may also be a multiple of their range, and must be sent. -/
theorem reads_status_iff (tree : Tree) :
    ReadsStatus tree ↔ FlagsReadable (received tree .requestStatusFlags) ∧
      ∀ request, request ≠ .requestStatusFlags → NumberReadable (received tree request) := by
  obtain ⟨status, hstatus⟩ : ∃ status, ofPoll tree = some status := ⟨_, ofPoll_eq tree⟩
  have hflags := getStatusFlags_iff (lookup_received hstatus .requestStatusFlags)
  have hnumber : ∀ getter ∈ numericGetters, (∀ otherwise, getter.2 status otherwise =
      .ok (((sent 64 (received tree getter.1)).map UInt64.ofNat).getD otherwise)) ↔
      NumberReadable (received tree getter.1) := by
    intro getter hgetter
    rw [numericGetters_eq getter hgetter]
    exact castOr_iff (lookup_received hstatus getter.1)
  constructor
  · rintro ⟨status', hstatus', hsent, hgetters⟩
    cases Option.some.inj (hstatus.symm.trans hstatus')
    refine ⟨hflags.mp hsent, ?_⟩
    intro request hrequest
    obtain ⟨getter, hgetter, rfl⟩ := List.mem_map.mp ((mem_numericGetters_iff request).mpr hrequest)
    exact (hnumber getter hgetter).mp (hgetters getter hgetter)
  · rintro ⟨hsent, hnumbers⟩
    refine ⟨status, hstatus, hflags.mpr hsent, ?_⟩
    intro getter hgetter
    have hrequest := (mem_numericGetters_iff getter.1).mp (List.mem_map_of_mem hgetter)
    exact (hnumber getter hgetter).mpr (hnumbers getter.1 hrequest)

end

def withoutFlagsTree : JsonTree :=
  .node "" [("error_code", .node "0" []), ("error_text", .node "success" []),
    ("load_indication", .node "27" []), ("up_time", .node "1440" [])]

theorem flags_missing_throws :
    ¬ ∀ (Tree : Type) [PropertyTree Tree] (tree : Tree),
      verifyErrorCode tree = true → ReadsStatus tree := by
  intro hclaim
  have hverified : verifyErrorCode withoutFlagsTree = true := by rfl
  obtain ⟨status, hstatus, hflags, -⟩ := hclaim JsonTree withoutFlagsTree hverified
  have htext := lookup_received hstatus .requestStatusFlags
  have hthrows : stoul (received withoutFlagsTree .requestStatusFlags) =
      .error .invalidArgument := by decide
  rw [getStatusFlags_eq htext, hthrows] at hflags
  cases hflags

end DeviceStatus
end R2000Driver

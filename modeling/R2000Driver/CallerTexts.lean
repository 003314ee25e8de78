import R2000Driver.RequestLine

/-!
# The texts of the caller

Which strings given to a setter make its value plain. Numbers, enumerations and
switches always are; the HMI texts have their white space encoded and only must
not hold `&`; all other strings reach the request line as they are. A request is
right exactly when every value is plain, and when every text given to its
builders is plain in this sense (`request_carries_iff`).
-/

namespace R2000Driver.RequestLine
open Parameters ReadWriteBuilder TextStream Http

instance (value : String) : Decidable (Plain value) :=
  List.decidableBAll (fun c => isSpace c = false ∧ c ≠ '&') value.toList

theorem plain_of_digits {text : String} (h : ∀ c ∈ text.toList, c.isDigit = true ∨ c = '-') :
    Plain text := by
  intro c hc
  rcases h c hc with hdigit | rfl
  · refine ⟨not_space_of_digit hdigit, ?_⟩
    rintro rfl
    cases hdigit
  · decide

theorem plain_nat (n : ℕ) : Plain (toString n) :=
  plain_of_digits fun _ hc => Or.inl (digit_of_mem_repr hc)

theorem plain_int (n : ℤ) : Plain (toString n) := by
  apply plain_of_digits
  intro c hc
  rw [Int.toString_eq_repr, Int.repr_eq_if] at hc
  split_ifs at hc
  · exact Or.inl (digit_of_mem_repr hc)
  · rw [String.toList_append] at hc
    rcases List.mem_append.mp hc with hc | hc
    · exact Or.inr (List.mem_singleton.mp hc)
    · exact Or.inl (digit_of_mem_repr hc)

theorem plain_encoreSpaceInUrl_iff (line : String) :
    Plain (encoreSpaceInUrl line) ↔ '&' ∉ line.toList := by
  have hmem : ∀ c, c ∈ (encoreSpaceInUrl line).toList ↔ ∃ d ∈ line.toList,
      c ∈ if isSpace d then "%20".toList else [d] := by
    intro c
    rw [encoreSpaceInUrl, String.toList_ofList, List.mem_flatMap]
  constructor
  · intro h hline
    have hencoded : '&' ∈ (encoreSpaceInUrl line).toList := (hmem '&').mpr ⟨'&', hline, by decide⟩
    exact (h '&' hencoded).2 rfl
  · intro h c hc
    obtain ⟨d, hd, hc⟩ := (hmem c).mp hc
    have hcode : Plain "%20" := by decide
    by_cases hspace : isSpace d = true
    · rw [if_pos hspace] at hc
      exact hcode c hc
    · rw [if_neg hspace, List.mem_singleton] at hc
      subst hc
      refine ⟨Bool.not_eq_true _ ▸ hspace, ?_⟩
      intro hamp
      exact h (hamp ▸ hd)

/-- A class of builders and the texts with which its calls are plain. -/
class CallerText (Call : Type) [ReadWriteBuilder Call] where
  TextPlain : Call → Prop
  plain_value_iff : ∀ c : Call, Plain (value c) ↔ TextPlain c

open CallerText

instance : CallerText BasicInformation where
  TextPlain
    | .withUserTag userTag => Plain userTag
    | .withUserNotes userNotes => Plain userNotes
  plain_value_iff c := by cases c <;> exact Iff.rfl

instance : CallerText Ethernet where
  TextPlain
    | .withIpMode _ => True
    | .withIpAddress ipAddress => Plain ipAddress
    | .withSubnetMask subnetMask => Plain subnetMask
    | .withGateway gateway => Plain gateway
  plain_value_iff c := by
    cases c with
    | withIpMode mode => cases mode <;> exact iff_of_true (by decide) trivial
    | _ => exact Iff.rfl

instance : CallerText Measuring where
  TextPlain _ := True
  plain_value_iff c := by
    apply iff_of_true _ trivial
    cases c with
    | withOperatingMode operatingMode => cases operatingMode <;> decide
    | withScanFrequency scanFrequency => exact plain_nat _
    | withSamplesPerScan samplesPerScan => exact plain_nat _
    | withScanDirection scanDirection => cases scanDirection <;> decide

instance : CallerText HmiDisplay where
  TextPlain
    | .withHmiStaticLogo base64Logo => Plain base64Logo
    | .withHmiStaticText1 line => '&' ∉ line.toList
    | .withHmiStaticText2 line => '&' ∉ line.toList
    | .withHmiApplicationBitmap base64Bitmap => Plain base64Bitmap
    | .withHmiApplicationText1 line => '&' ∉ line.toList
    | .withHmiApplicationText2 line => '&' ∉ line.toList
    | _ => True
  plain_value_iff c := by
    cases c with
    | withHmiDisplayMode displayMode =>
      cases displayMode <;> exact iff_of_true (by decide) trivial
    | withHmiLanguage language => cases language <;> exact iff_of_true (by decide) trivial
    | withHmiStaticLogo base64Logo => exact Iff.rfl
    | withHmiStaticText1 line => exact plain_encoreSpaceInUrl_iff line
    | withHmiStaticText2 line => exact plain_encoreSpaceInUrl_iff line
    | withHmiApplicationBitmap base64Bitmap => exact Iff.rfl
    | withHmiApplicationText1 line => exact plain_encoreSpaceInUrl_iff line
    | withHmiApplicationText2 line => exact plain_encoreSpaceInUrl_iff line
    | _ => exact iff_of_true (by decide) trivial

instance : CallerText HandleTcp where
  TextPlain _ := True
  plain_value_iff c := by
    apply iff_of_true _ trivial
    cases c with
    | withPacketType packetType => cases packetType <;> decide
    | withPacketCrc crcType => cases crcType <;> decide
    | withStartAngle startAngle => exact plain_int _
    | withWatchdogTimeout watchdogtimeout => exact plain_nat _
    | withNumberOfPointsPerScan numberOfPointsPerScan => exact plain_nat _
    | withNumberOfScanToSkip numberOfScanToSkip => exact plain_nat _
    | _ => decide

instance : CallerText HandleUdp where
  TextPlain
    | .withHostname hostname => Plain hostname
    | _ => True
  plain_value_iff c := by
    cases c with
    | withHostname hostname => exact Iff.rfl
    | withPort port => exact iff_of_true (plain_nat _) trivial
    | withPacketType packetType => cases packetType <;> exact iff_of_true (by decide) trivial
    | withPacketCrc crcType => cases crcType <;> exact iff_of_true (by decide) trivial
    | withStartAngle startAngle => exact iff_of_true (plain_int _) trivial
    | withWatchdogTimeout watchdogtimeout => exact iff_of_true (plain_nat _) trivial
    | withNumberOfPointsPerScan numberOfPointsPerScan => exact iff_of_true (plain_nat _) trivial
    | withNumberOfScanToSkip numberOfScanToSkip => exact iff_of_true (plain_nat _) trivial
    | _ => exact iff_of_true (by decide) trivial

instance : CallerText LensContaminationMonitor where
  TextPlain _ := True
  plain_value_iff c := by
    apply iff_of_true _ trivial
    cases c with
    | withSensitivity sensitivity => cases sensitivity <;> decide
    | withDetectionPeriod milliseconds => exact plain_int _
    | _ => decide

def PlainValues (parameters : ParametersMap) : Prop :=
  ∀ name text, parameters.lookup name = some text → Plain text

theorem plainValues_build {Call : Type} [ReadWriteBuilder Call] [CallerText Call]
    {calls : List Call} (h : ∀ c ∈ allCalls calls, TextPlain c) : PlainValues (build calls) := by
  intro name text hlookup
  rw [build, LastWrite.lookup_writeAll] at hlookup
  obtain ⟨c, hlast, rfl⟩ := Option.map_eq_some_iff.mp hlookup
  exact (plain_value_iff c).mpr (h c (LastWrite.mem_of_last hlast).1)

def BuilderTextPlain : Builder → Prop
  | .basicInformation calls => ∀ c ∈ allCalls calls, TextPlain c
  | .ethernet calls => ∀ c ∈ allCalls calls, TextPlain c
  | .measuring calls => ∀ c ∈ allCalls calls, TextPlain c
  | .hmiDisplay calls => ∀ c ∈ allCalls calls, TextPlain c
  | .handleTcp calls => ∀ c ∈ allCalls calls, TextPlain c
  | .handleUdp calls => ∀ c ∈ allCalls calls, TextPlain c
  | .lensContaminationMonitor calls => ∀ c ∈ allCalls calls, TextPlain c

theorem plainValues_builder {builder : Builder} (h : BuilderTextPlain builder) :
    PlainValues builder.build := by
  cases builder with
  | basicInformation calls => exact plainValues_build h
  | ethernet calls => exact plainValues_build h
  | measuring calls => exact plainValues_build h
  | hmiDisplay calls => exact plainValues_build h
  | handleTcp calls => exact plainValues_build h
  | handleUdp calls => exact plainValues_build h
  | lensContaminationMonitor calls => exact plainValues_build h

theorem plainValues_chained {builders : List Builder} (h : ∀ b ∈ builders, BuilderTextPlain b) :
    PlainValues (chained builders) := by
  induction builders using List.reverseRecOn with
  | nil =>
    intro name text hlookup
    cases hlookup
  | append_singleton builders builder ih =>
    intro name text hlookup
    have hbuilder := plainValues_builder (h builder (by simp))
    have hrest := ih fun b hb => h b (List.mem_append_left _ hb)
    rw [chained, List.foldl_append] at hlookup
    rcases AList.mem_lookup_union.mp hlookup with hlookup | ⟨-, hlookup⟩
    · exact hrest name text hlookup
    · exact hbuilder name text hlookup

/-- For the map of any builders, iterated in any order, the request is right exactly when no
value holds white space or `&`, and so when the texts given to the setters are plain. -/
theorem request_carries_iff (command : Command) (builders : List Builder)
    (iteration : List (String × String)) (hiteration : (chained builders).Iterates iteration) :
    (Carries (makeRequestFromParameters command.name iteration) (chained builders) ↔
      ∀ p ∈ iteration, Plain p.2) ∧
    ((∀ b ∈ builders, BuilderTextPlain b) →
      Carries (makeRequestFromParameters command.name iteration) (chained builders)) := by
  have hiff := carries_iff command hiteration (inner_of_named (named_chained builders) hiteration)
  refine ⟨hiff, fun h => hiff.mpr fun p hp => ?_⟩
  have hpair : (p.1, p.2) ∈ (chained builders).pairs := hiteration.mem_iff.mp hp
  exact plainValues_chained h p.1 p.2 (ParametersMap.mem_pairs.mp hpair)

def measuringBuilders : List Builder :=
  [.measuring [.withScanFrequency 35, .withSamplesPerScan 7200]]

theorem request_carries_iff_measuring :
    (Carries (makeRequestFromParameters Command.setParameter.name (chained measuringBuilders).pairs)
        (chained measuringBuilders) ↔ ∀ p ∈ (chained measuringBuilders).pairs, Plain p.2) ∧
      Carries (makeRequestFromParameters Command.setParameter.name (chained measuringBuilders).pairs)
        (chained measuringBuilders) := by
  obtain ⟨hiff, hcarries⟩ := request_carries_iff .setParameter measuringBuilders _ (List.Perm.refl _)
  refine ⟨hiff, hcarries fun b hb => ?_⟩
  rw [List.mem_singleton.mp hb]
  exact fun _ _ => trivial

def taggedRequest (userTag : String) : List Char :=
  makeRequestFromParameters Command.setParameter.name
    (chained [.basicInformation [.withUserTag userTag]]).pairs

theorem userTag_adds_a_parameter_and_a_request :
    readParameters (taggedRequest "lab&ip_mode=dhcp") = [("user_tag", "lab"), ("ip_mode", "dhcp")] ∧
      requestText (taggedRequest "x HTTP/1.0\r\n\r\nGET /cmd/factory_reset") =
        requestText "/cmd/set_parameter?user_tag=x".toList ++
          requestText (makeRequestFromParameters Command.factoryReset.name []) ∧
      ¬ Carries (taggedRequest "lab&ip_mode=dhcp")
        (chained [.basicInformation [.withUserTag "lab&ip_mode=dhcp"]]) ∧
      ¬ Carries (taggedRequest "x HTTP/1.0\r\n\r\nGET /cmd/factory_reset")
        (chained [.basicInformation
          [.withUserTag "x HTTP/1.0\r\n\r\nGET /cmd/factory_reset"]]) := by
  have hread : readParameters (taggedRequest "lab&ip_mode=dhcp") =
      [("user_tag", "lab"), ("ip_mode", "dhcp")] := by decide
  refine ⟨hread, by decide, ?_, ?_⟩
  · intro h
    have hlength := h.parameters.length_eq
    rw [hread] at hlength
    revert hlength
    decide
  · intro h
    have hspace := h.noSpace ' ' (by decide)
    revert hspace
    decide

end R2000Driver.RequestLine

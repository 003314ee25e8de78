import Mathlib.Data.List.Nodup
import R2000Driver.ParametersMap

/-!
# The ReadOnly builders

A call of a request method adds one name to the list of the builder. `name` is
what the method is given in the source; the own `parameter` of a method is the
one that the macro is named after. They differ for two methods of the
capabilities, whose macros have the values of others.
-/

namespace R2000Driver.Parameters.ReadOnly

inductive BasicInformation
  | requestDeviceFamily
  | requestVendor
  | requestProduct
  | requestPart
  | requestSerial
  | requestFirmwareRevision
  | requestHardwareRevision
  | withUserTag
  | withUserNotes
  deriving DecidableEq, Repr

def BasicInformation.name : BasicInformation → String
  | requestDeviceFamily => "device_family"
  | requestVendor => "vendor"
  | requestProduct => "product"
  | requestPart => "part"
  | requestSerial => "serial"
  | requestFirmwareRevision => "revision_fw"
  | requestHardwareRevision => "revision_hw"
  | withUserTag => "user_tag"
  | withUserNotes => "user_notes"

inductive Capabilities
  | requestFeatureFlags
  | requestEmitterType
  | requestRadialMinRange
  | requestRadialMaxRange
  | requestRadialResolution
  | requestAngularFov
  | requestAngularResolution
  | requestMinimalScanFrequency
  | requestMaximalScanFrequency
  | requestMinimalSamplingRate
  | requestMaximalSamplingRate
  | requestMaximalConnections
  deriving DecidableEq, Repr

def Capabilities.name : Capabilities → String
  | requestFeatureFlags => "feature_flags"
  | requestEmitterType => "emitter_type"
  | requestRadialMinRange => "radial_range_min"
  | requestRadialMaxRange => "radial_range_max"
  | requestRadialResolution => "radial_resolution"
  | requestAngularFov => "angular_fov"
  -- The values of `PARAMETER_ANGULAR_RESOLUTION` and `PARAMETER_SAMPLING_RATE_MAX`.
  | requestAngularResolution => "sampling_rate_max"
  | requestMinimalScanFrequency => "scan_frequency_min"
  | requestMaximalScanFrequency => "scan_frequency_max"
  | requestMinimalSamplingRate => "sampling_rate_min"
  | requestMaximalSamplingRate => "angular_fov"
  | requestMaximalConnections => "max_connections"

inductive Ethernet
  | requestCurrentIpMode
  | requestCurrentIpAddress
  | requestCurrentSubnetMask
  | requestCurrentGateway
  | requestMacAddress
  | withIpMode
  | withIpAddress
  | withSubnetMask
  | withGateway
  deriving DecidableEq, Repr

def Ethernet.name : Ethernet → String
  | requestCurrentIpMode => "ip_mode_current"
  | requestCurrentIpAddress => "ip_address_current"
  | requestCurrentSubnetMask => "subnet_mask_current"
  | requestCurrentGateway => "gateway_current"
  | requestMacAddress => "mac_address"
  | withIpMode => "ip_mode"
  | withIpAddress => "ip_address"
  | withSubnetMask => "subnet_mask"
  | withGateway => "gateway"

inductive Measuring
  | requestMeasuredFrequency
  | withOperatingMode
  | withScanFrequency
  | withScanDirection
  | withSamplesPerScan
  deriving DecidableEq, Repr

def Measuring.name : Measuring → String
  | requestMeasuredFrequency => "scan_frequency_measured"
  | withOperatingMode => "operating_mode"
  | withScanFrequency => "scan_frequency"
  | withScanDirection => "scan_direction"
  | withSamplesPerScan => "samples_per_scan"

inductive HmiDisplay
  | withHmiDisplayMode
  | withHmiLanguage
  | withLockHmiButton
  | withLockHmiParameters
  | withLEDLocatorIndication
  | withHmiStaticLogo
  | withHmiStaticText1
  | withHmiStaticText2
  | withHmiApplicationBitmap
  | withHmiApplicationText1
  | withHmiApplicationText2
  deriving DecidableEq, Repr

def HmiDisplay.name : HmiDisplay → String
  | withHmiDisplayMode => "hmi_display_mode"
  | withHmiLanguage => "hmi_language"
  | withLockHmiButton => "hmi_button_lock"
  | withLockHmiParameters => "hmi_parameter_lock"
  | withLEDLocatorIndication => "locator_indication"
  | withHmiStaticLogo => "hmi_static_logo"
  | withHmiStaticText1 => "hmi_static_text_1"
  | withHmiStaticText2 => "hmi_static_text_2"
  | withHmiApplicationBitmap => "hmi_application_bitmap"
  | withHmiApplicationText1 => "hmi_application_text_1"
  | withHmiApplicationText2 => "hmi_application_text_2"

inductive SystemStatus
  | requestStatusFlags
  | requestLoadIndication
  | requestSystemTimeRaw
  | requestUpTime
  | requestPowerCycles
  | requestOperationTime
  | requestOperationTimeScaled
  | requestCurrentTemperature
  | requestMinimalTemperature
  | requestMaximalTemperature
  deriving DecidableEq, Repr

def SystemStatus.name : SystemStatus → String
  | requestStatusFlags => "status_flags"
  | requestLoadIndication => "load_indication"
  | requestSystemTimeRaw => "system_time_raw"
  | requestUpTime => "up_time"
  | requestPowerCycles => "power_cycles"
  | requestOperationTime => "operation_time"
  | requestOperationTimeScaled => "operation_time_scaled"
  | requestCurrentTemperature => "temperature_current"
  | requestMinimalTemperature => "temperature_min"
  | requestMaximalTemperature => "temperature_max"

inductive LensContaminationMonitor
  | requestLcmSectorWarningFlag
  | requestLcmSectorErrorFlag
  | withSensitivity
  | withDetectionPeriod
  | withLcmState
  deriving DecidableEq, Repr

def LensContaminationMonitor.name : LensContaminationMonitor → String
  | requestLcmSectorWarningFlag => "lcm_sector_warn_flags"
  | requestLcmSectorErrorFlag => "lcm_sector_error_flags"
  | withSensitivity => "lcm_detection_sensitivity"
  | withDetectionPeriod => "lcm_detection_period"
  | withLcmState => "lcm_sector_enable"

inductive Request
  | basicInformation (method : BasicInformation)
  | capabilities (method : Capabilities)
  | ethernet (method : Ethernet)
  | measuring (method : Measuring)
  | hmiDisplay (method : HmiDisplay)
  | systemStatus (method : SystemStatus)
  | lensContaminationMonitor (method : LensContaminationMonitor)
  deriving DecidableEq, Repr

def Request.name : Request → String
  | basicInformation method => method.name
  | capabilities method => method.name
  | ethernet method => method.name
  | measuring method => method.name
  | hmiDisplay method => method.name
  | systemStatus method => method.name
  | lensContaminationMonitor method => method.name

def Request.parameter : Request → String
  | capabilities .requestAngularResolution => "angular_resolution"
  | capabilities .requestMaximalSamplingRate => "sampling_rate_max"
  | request => request.name

inductive Builder
  | basicInformation (calls : List BasicInformation)
  | capabilities (calls : List Capabilities)
  | ethernet (calls : List Ethernet)
  | measuring (calls : List Measuring)
  | hmiDisplay (calls : List HmiDisplay)
  | systemStatus (calls : List SystemStatus)
  | lensContaminationMonitor (calls : List LensContaminationMonitor)
  deriving DecidableEq, Repr

def Builder.build : Builder → ParametersList
  | basicInformation calls => calls.map BasicInformation.name
  | capabilities calls => calls.map Capabilities.name
  | ethernet calls => calls.map Ethernet.name
  | measuring calls => calls.map Measuring.name
  | hmiDisplay calls => calls.map HmiDisplay.name
  | systemStatus calls => calls.map SystemStatus.name
  | lensContaminationMonitor calls => calls.map LensContaminationMonitor.name

def Builder.requests : Builder → List Request
  | basicInformation calls => calls.map .basicInformation
  | capabilities calls => calls.map .capabilities
  | ethernet calls => calls.map .ethernet
  | measuring calls => calls.map .measuring
  | hmiDisplay calls => calls.map .hmiDisplay
  | systemStatus calls => calls.map .systemStatus
  | lensContaminationMonitor calls => calls.map .lensContaminationMonitor

def chained (builders : List Builder) : ParametersList :=
  builders.foldl (fun parameters builder => parameters ++ builder.build) []

def requests (builders : List Builder) : List Request := builders.flatMap Builder.requests

theorem Builder.build_eq (builder : Builder) : builder.build = builder.requests.map Request.name := by
  cases builder <;> rw [requests, List.map_map] <;> rfl

theorem chained_eq (builders : List Builder) : chained builders = (requests builders).map Request.name := by
  have hbuild : Builder.build = fun builder => builder.requests.map Request.name :=
    funext Builder.build_eq
  rw [chained, List.foldl_append_eq_append, List.nil_append, ← List.flatMap_def, requests,
    List.map_flatMap, hbuild]

def Request.all : List Request :=
  [.requestDeviceFamily, .requestVendor, .requestProduct, .requestPart, .requestSerial,
    .requestFirmwareRevision, .requestHardwareRevision, .withUserTag, .withUserNotes].map
    Request.basicInformation ++
  [.requestFeatureFlags, .requestEmitterType, .requestRadialMinRange, .requestRadialMaxRange,
    .requestRadialResolution, .requestAngularFov, .requestAngularResolution,
    .requestMinimalScanFrequency, .requestMaximalScanFrequency, .requestMinimalSamplingRate,
    .requestMaximalSamplingRate, .requestMaximalConnections].map Request.capabilities ++
  [.requestCurrentIpMode, .requestCurrentIpAddress, .requestCurrentSubnetMask,
    .requestCurrentGateway, .requestMacAddress, .withIpMode, .withIpAddress, .withSubnetMask,
    .withGateway].map Request.ethernet ++
  [.requestMeasuredFrequency, .withOperatingMode, .withScanFrequency, .withScanDirection,
    .withSamplesPerScan].map Request.measuring ++
  [.withHmiDisplayMode, .withHmiLanguage, .withLockHmiButton, .withLockHmiParameters,
    .withLEDLocatorIndication, .withHmiStaticLogo, .withHmiStaticText1, .withHmiStaticText2,
    .withHmiApplicationBitmap, .withHmiApplicationText1, .withHmiApplicationText2].map
    Request.hmiDisplay ++
  [.requestStatusFlags, .requestLoadIndication, .requestSystemTimeRaw, .requestUpTime,
    .requestPowerCycles, .requestOperationTime, .requestOperationTimeScaled,
    .requestCurrentTemperature, .requestMinimalTemperature, .requestMaximalTemperature].map
    Request.systemStatus ++
  [.requestLcmSectorWarningFlag, .requestLcmSectorErrorFlag, .withSensitivity,
    .withDetectionPeriod, .withLcmState].map Request.lensContaminationMonitor

theorem Request.mem_all (request : Request) : request ∈ Request.all := by
  cases request with
  | basicInformation method => cases method <;> decide
  | capabilities method => cases method <;> decide
  | ethernet method => cases method <;> decide
  | measuring method => cases method <;> decide
  | hmiDisplay method => cases method <;> decide
  | systemStatus method => cases method <;> decide
  | lensContaminationMonitor method => cases method <;> decide

theorem Request.parameters_nodup : (Request.all.map Request.parameter).Nodup := by decide +kernel

theorem Request.parameter_injective : Function.Injective Request.parameter := by
  intro r s h
  exact List.inj_on_of_nodup_map Request.parameters_nodup (Request.mem_all r) (Request.mem_all s) h

/-- A method that asks for its own parameter. -/
def Request.Own (request : Request) : Prop :=
  request ≠ .capabilities .requestAngularResolution ∧
    request ≠ .capabilities .requestMaximalSamplingRate

theorem Request.name_eq_parameter_iff (request : Request) :
    request.name = request.parameter ↔ request.Own := by
  unfold Request.parameter Request.Own
  split <;> simp_all [Request.name, Capabilities.name]

end R2000Driver.Parameters.ReadOnly

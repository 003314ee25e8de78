import R2000Driver.LastWrite
import R2000Driver.ParametersMap
import R2000Driver.TextStream

/-!
# The ReadWrite builders

Each ReadWrite builder class has its setter methods, and each call of one
assigns one value under one name of a parameter. `key` is the name that the
method is given in the source and `setting` is what the method is there to set,
with the lock and unlock and the with and without methods being one setting.
-/

namespace R2000Driver.Parameters

inductive IpMode
  | static
  | dhcp
  | autoIp
  deriving DecidableEq, Repr

def IpMode.toText : IpMode → String
  | static => "static"
  | dhcp => "dhcp"
  | autoIp => "autoip"

inductive Language
  | english
  | german
  deriving DecidableEq, Repr

def Language.toText : Language → String
  | english => "english"
  | german => "german"

inductive HmiDisplayMode
  | off
  | staticLogo
  | staticText
  | barGraphDistance
  | barGraphEcho
  | barGraphReflector
  | applicationBitmap
  | applicationText
  deriving DecidableEq, Repr

def HmiDisplayMode.toText : HmiDisplayMode → String
  | off => "off"
  | staticLogo => "static_logo"
  | staticText => "static_text"
  | barGraphDistance => "bargraph_distance"
  | barGraphEcho => "bargraph_echo"
  | barGraphReflector => "bargraph_reflector"
  | applicationBitmap => "application_bitmap"
  | applicationText => "application_text"

inductive OperatingMode
  | measure
  | emitterOff
  deriving DecidableEq, Repr

def OperatingMode.toText : OperatingMode → String
  | measure => "measure"
  | emitterOff => "emitter_off"

inductive ScanDirection
  | cw
  | ccw
  deriving DecidableEq, Repr

def ScanDirection.toText : ScanDirection → String
  | cw => "cw"
  | ccw => "ccw"

inductive PacketType
  | a
  | b
  | c
  deriving DecidableEq, Repr

def PacketType.toText : PacketType → String
  | a => "A"
  | b => "B"
  | c => "C"

inductive Crc
  | none
  | crc32c
  deriving DecidableEq, Repr

def Crc.toText : Crc → String
  | none => "none"
  | crc32c => "crc32c"

inductive LcmSensitivity
  | disabled
  | low
  | medium
  | high
  deriving DecidableEq, Repr

def LcmSensitivity.toText : LcmSensitivity → String
  | disabled => "disabled"
  | low => "low"
  | medium => "medium"
  | high => "high"

def boolParameterTrue : String := "on"
def boolParameterFalse : String := "off"

/-- Every white-space character becomes `%20`. -/
def encoreSpaceInUrl (line : String) : String :=
  String.ofList (line.toList.flatMap fun c =>
    if TextStream.isSpace c then "%20".toList else [c])

inductive Setting
  | userTag
  | userNotes
  | ipMode
  | ipAddress
  | subnetMask
  | gateway
  | operatingMode
  | scanFrequency
  | samplesPerScan
  | scanDirection
  | hmiDisplayMode
  | hmiLanguage
  | hmiButtonLock
  | hmiParameterLock
  | locatorIndication
  | hmiStaticLogo
  | hmiStaticText1
  | hmiStaticText2
  | hmiApplicationBitmap
  | hmiApplicationText1
  | hmiApplicationText2
  | hostname
  | port
  | watchdog
  | watchdogTimeout
  | packetType
  | packetCrc
  | startAngle
  | numberOfPointsPerScan
  | numberOfScanToSkip
  | sensitivity
  | detectionPeriod
  | lcmState
  deriving DecidableEq, Repr

def Setting.parameter : Setting → String
  | userTag => "user_tag"
  | userNotes => "user_notes"
  | ipMode => "ip_mode"
  | ipAddress => "ip_address"
  | subnetMask => "subnet_mask"
  | gateway => "gateway"
  | operatingMode => "operating_mode"
  | scanFrequency => "scan_frequency"
  | samplesPerScan => "samples_per_scan"
  | scanDirection => "scan_direction"
  | hmiDisplayMode => "hmi_display_mode"
  | hmiLanguage => "hmi_language"
  | hmiButtonLock => "hmi_button_lock"
  | hmiParameterLock => "hmi_parameter_lock"
  | locatorIndication => "locator_indication"
  | hmiStaticLogo => "hmi_static_logo"
  | hmiStaticText1 => "hmi_static_text_1"
  | hmiStaticText2 => "hmi_static_text_2"
  | hmiApplicationBitmap => "hmi_application_bitmap"
  | hmiApplicationText1 => "hmi_application_text_1"
  | hmiApplicationText2 => "hmi_application_text_2"
  | hostname => "address"
  | port => "port"
  | watchdog => "watchdog"
  | watchdogTimeout => "watchdogtimeout"
  | packetType => "packet_type"
  | packetCrc => "packet_crc"
  | startAngle => "start_angle"
  | numberOfPointsPerScan => "max_num_points_scan"
  | numberOfScanToSkip => "skip_scans"
  | sensitivity => "lcm_detection_sensitivity"
  | detectionPeriod => "lcm_detection_period"
  | lcmState => "lcm_sector_enable"

class ReadWriteBuilder (Call : Type) where
  setting : Call → Setting
  key : Call → String
  value : Call → String
  constructor : List Call

def build {Call : Type} [ReadWriteBuilder Call] (calls : List Call) : ParametersMap :=
  LastWrite.writeAll ReadWriteBuilder.key ReadWriteBuilder.value
    ((ReadWriteBuilder.constructor : List Call) ++ calls)

inductive BasicInformation
  | withUserTag (userTag : String)
  | withUserNotes (userNotes : String)
  deriving DecidableEq, Repr

instance : ReadWriteBuilder BasicInformation where
  setting
    | .withUserTag _ => .userTag
    | .withUserNotes _ => .userNotes
  key
    | .withUserTag _ => "user_tag"
    | .withUserNotes _ => "user_notes"
  value
    | .withUserTag userTag => userTag
    | .withUserNotes userNotes => userNotes
  constructor := []

inductive Ethernet
  | withIpMode (mode : IpMode)
  | withIpAddress (ipAddress : String)
  | withSubnetMask (subnetMask : String)
  | withGateway (gateway : String)
  deriving DecidableEq, Repr

instance : ReadWriteBuilder Ethernet where
  setting
    | .withIpMode _ => .ipMode
    | .withIpAddress _ => .ipAddress
    | .withSubnetMask _ => .subnetMask
    | .withGateway _ => .gateway
  key
    -- The macro is given `PARAMETER_IP_ADDRESS` here.
    | .withIpMode _ => "ip_address"
    | .withIpAddress _ => "ip_address"
    | .withSubnetMask _ => "subnet_mask"
    | .withGateway _ => "gateway"
  value
    | .withIpMode mode => mode.toText
    | .withIpAddress ipAddress => ipAddress
    | .withSubnetMask subnetMask => subnetMask
    | .withGateway gateway => gateway
  constructor := []

inductive Measuring
  | withOperatingMode (operatingMode : OperatingMode)
  | withScanFrequency (scanFrequency : UInt32)
  | withSamplesPerScan (samplesPerScan : UInt32)
  | withScanDirection (scanDirection : ScanDirection)
  deriving DecidableEq, Repr

instance : ReadWriteBuilder Measuring where
  setting
    | .withOperatingMode _ => .operatingMode
    | .withScanFrequency _ => .scanFrequency
    | .withSamplesPerScan _ => .samplesPerScan
    | .withScanDirection _ => .scanDirection
  key
    | .withOperatingMode _ => "operating_mode"
    | .withScanFrequency _ => "scan_frequency"
    | .withSamplesPerScan _ => "samples_per_scan"
    | .withScanDirection _ => "scan_direction"
  value
    | .withOperatingMode operatingMode => operatingMode.toText
    | .withScanFrequency scanFrequency => toString scanFrequency.toNat
    | .withSamplesPerScan samplesPerScan => toString samplesPerScan.toNat
    | .withScanDirection scanDirection => scanDirection.toText
  constructor := []

inductive HmiDisplay
  | withHmiDisplayMode (displayMode : HmiDisplayMode)
  | withHmiLanguage (language : Language)
  | lockHmiButton
  | unlockHmiButton
  | lockHmiParameters
  | unlockHmiParameters
  | enableLEDLocatorIndication
  | disableLEDLocatorIndication
  | withHmiStaticLogo (base64Logo : String)
  | withHmiStaticText1 (line : String)
  | withHmiStaticText2 (line : String)
  | withHmiApplicationBitmap (base64Bitmap : String)
  | withHmiApplicationText1 (line : String)
  | withHmiApplicationText2 (line : String)
  deriving DecidableEq, Repr

instance : ReadWriteBuilder HmiDisplay where
  setting
    | .withHmiDisplayMode _ => .hmiDisplayMode
    | .withHmiLanguage _ => .hmiLanguage
    | .lockHmiButton | .unlockHmiButton => .hmiButtonLock
    | .lockHmiParameters | .unlockHmiParameters => .hmiParameterLock
    | .enableLEDLocatorIndication | .disableLEDLocatorIndication => .locatorIndication
    | .withHmiStaticLogo _ => .hmiStaticLogo
    | .withHmiStaticText1 _ => .hmiStaticText1
    | .withHmiStaticText2 _ => .hmiStaticText2
    | .withHmiApplicationBitmap _ => .hmiApplicationBitmap
    | .withHmiApplicationText1 _ => .hmiApplicationText1
    | .withHmiApplicationText2 _ => .hmiApplicationText2
  key
    | .withHmiDisplayMode _ => "hmi_display_mode"
    | .withHmiLanguage _ => "hmi_language"
    | .lockHmiButton => "hmi_button_lock"
    | .unlockHmiButton => "hmi_button_lock"
    | .lockHmiParameters => "hmi_parameter_lock"
    | .unlockHmiParameters => "hmi_parameter_lock"
    | .enableLEDLocatorIndication => "locator_indication"
    | .disableLEDLocatorIndication => "locator_indication"
    | .withHmiStaticLogo _ => "hmi_static_logo"
    | .withHmiStaticText1 _ => "hmi_static_text_1"
    | .withHmiStaticText2 _ => "hmi_static_text_2"
    | .withHmiApplicationBitmap _ => "hmi_application_bitmap"
    | .withHmiApplicationText1 _ => "hmi_application_text_1"
    | .withHmiApplicationText2 _ => "hmi_application_text_2"
  value
    | .withHmiDisplayMode displayMode => displayMode.toText
    | .withHmiLanguage language => language.toText
    | .lockHmiButton => boolParameterTrue
    | .unlockHmiButton => boolParameterFalse
    | .lockHmiParameters => boolParameterTrue
    | .unlockHmiParameters => boolParameterFalse
    | .enableLEDLocatorIndication => boolParameterTrue
    | .disableLEDLocatorIndication => boolParameterFalse
    | .withHmiStaticLogo base64Logo => base64Logo
    | .withHmiStaticText1 line => encoreSpaceInUrl line
    | .withHmiStaticText2 line => encoreSpaceInUrl line
    | .withHmiApplicationBitmap base64Bitmap => base64Bitmap
    | .withHmiApplicationText1 line => encoreSpaceInUrl line
    | .withHmiApplicationText2 line => encoreSpaceInUrl line
  constructor := []

inductive HandleTcp
  | withWatchdog
  | withoutWatchdog
  | withWatchdogTimeout (watchdogtimeout : UInt32)
  | withPacketType (packetType : PacketType)
  | withPacketCrc (crcType : Crc)
  | withStartAngle (startAngle : Int32)
  | withNumberOfPointsPerScan (numberOfPointsPerScan : UInt32)
  | withNumberOfScanToSkip (numberOfScanToSkip : UInt32)
  deriving DecidableEq, Repr

instance : ReadWriteBuilder HandleTcp where
  setting
    | .withWatchdog | .withoutWatchdog => .watchdog
    | .withWatchdogTimeout _ => .watchdogTimeout
    | .withPacketType _ => .packetType
    | .withPacketCrc _ => .packetCrc
    | .withStartAngle _ => .startAngle
    | .withNumberOfPointsPerScan _ => .numberOfPointsPerScan
    | .withNumberOfScanToSkip _ => .numberOfScanToSkip
  key
    | .withWatchdog => "watchdog"
    | .withoutWatchdog => "watchdog"
    | .withWatchdogTimeout _ => "watchdogtimeout"
    | .withPacketType _ => "packet_type"
    | .withPacketCrc _ => "packet_crc"
    | .withStartAngle _ => "start_angle"
    | .withNumberOfPointsPerScan _ => "max_num_points_scan"
    | .withNumberOfScanToSkip _ => "skip_scans"
  value
    | .withWatchdog => boolParameterTrue
    | .withoutWatchdog => boolParameterFalse
    | .withWatchdogTimeout watchdogtimeout => toString watchdogtimeout.toNat
    | .withPacketType packetType => packetType.toText
    | .withPacketCrc crcType => crcType.toText
    | .withStartAngle startAngle => toString startAngle.toInt
    | .withNumberOfPointsPerScan numberOfPointsPerScan => toString numberOfPointsPerScan.toNat
    | .withNumberOfScanToSkip numberOfScanToSkip => toString numberOfScanToSkip.toNat
  constructor := [.withoutWatchdog]

/-- The setters of a UDP handle are those of a TCP handle and two of its own. -/
inductive HandleUdp
  | withHostname (hostname : String)
  | withPort (port : UInt16)
  | withWatchdog
  | withoutWatchdog
  | withWatchdogTimeout (watchdogtimeout : UInt32)
  | withPacketType (packetType : PacketType)
  | withPacketCrc (crcType : Crc)
  | withStartAngle (startAngle : Int32)
  | withNumberOfPointsPerScan (numberOfPointsPerScan : UInt32)
  | withNumberOfScanToSkip (numberOfScanToSkip : UInt32)
  deriving DecidableEq, Repr

instance : ReadWriteBuilder HandleUdp where
  setting
    | .withHostname _ => .hostname
    | .withPort _ => .port
    | .withWatchdog | .withoutWatchdog => .watchdog
    | .withWatchdogTimeout _ => .watchdogTimeout
    | .withPacketType _ => .packetType
    | .withPacketCrc _ => .packetCrc
    | .withStartAngle _ => .startAngle
    | .withNumberOfPointsPerScan _ => .numberOfPointsPerScan
    | .withNumberOfScanToSkip _ => .numberOfScanToSkip
  key
    | .withHostname _ => "address"
    | .withPort _ => "port"
    | .withWatchdog => "watchdog"
    | .withoutWatchdog => "watchdog"
    | .withWatchdogTimeout _ => "watchdogtimeout"
    | .withPacketType _ => "packet_type"
    | .withPacketCrc _ => "packet_crc"
    | .withStartAngle _ => "start_angle"
    | .withNumberOfPointsPerScan _ => "max_num_points_scan"
    | .withNumberOfScanToSkip _ => "skip_scans"
  value
    | .withHostname hostname => hostname
    | .withPort port => toString port.toNat
    | .withWatchdog => boolParameterTrue
    | .withoutWatchdog => boolParameterFalse
    | .withWatchdogTimeout watchdogtimeout => toString watchdogtimeout.toNat
    | .withPacketType packetType => packetType.toText
    | .withPacketCrc crcType => crcType.toText
    | .withStartAngle startAngle => toString startAngle.toInt
    | .withNumberOfPointsPerScan numberOfPointsPerScan => toString numberOfPointsPerScan.toNat
    | .withNumberOfScanToSkip numberOfScanToSkip => toString numberOfScanToSkip.toNat
  constructor := [.withoutWatchdog]

inductive LensContaminationMonitor
  | withSensitivity (sensitivity : LcmSensitivity)
  | withDetectionPeriod (milliseconds : Int64)
  | withLcmEnabled
  | withLcmDisabled
  deriving DecidableEq, Repr

instance : ReadWriteBuilder LensContaminationMonitor where
  setting
    | .withSensitivity _ => .sensitivity
    | .withDetectionPeriod _ => .detectionPeriod
    | .withLcmEnabled | .withLcmDisabled => .lcmState
  key
    | .withSensitivity _ => "lcm_detection_sensitivity"
    | .withDetectionPeriod _ => "lcm_detection_period"
    | .withLcmEnabled => "lcm_sector_enable"
    | .withLcmDisabled => "lcm_sector_enable"
  value
    | .withSensitivity sensitivity => sensitivity.toText
    | .withDetectionPeriod milliseconds => toString milliseconds.toInt
    | .withLcmEnabled => boolParameterTrue
    | .withLcmDisabled => boolParameterFalse
  constructor := []

inductive Builder
  | basicInformation (calls : List BasicInformation)
  | ethernet (calls : List Ethernet)
  | measuring (calls : List Measuring)
  | hmiDisplay (calls : List HmiDisplay)
  | handleTcp (calls : List HandleTcp)
  | handleUdp (calls : List HandleUdp)
  | lensContaminationMonitor (calls : List LensContaminationMonitor)
  deriving DecidableEq, Repr

def Builder.build : Builder → ParametersMap
  | basicInformation calls => Parameters.build calls
  | ethernet calls => Parameters.build calls
  | measuring calls => Parameters.build calls
  | hmiDisplay calls => Parameters.build calls
  | handleTcp calls => Parameters.build calls
  | handleUdp calls => Parameters.build calls
  | lensContaminationMonitor calls => Parameters.build calls

end R2000Driver.Parameters

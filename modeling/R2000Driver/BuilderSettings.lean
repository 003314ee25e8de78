import Mathlib.Data.List.Nodup
import R2000Driver.ReadWriteBuilders

/-!
# The settings of the builders

A builder is `Independent` when each of its settings has an entry of its own
with the value of the setting's last call. The writes are those of `LastWrite`,
so this says that methods of different settings write different names
(`independent_iff`). Only `withIpMode` is given the name of another setting.
-/

namespace R2000Driver.Parameters
open LastWrite ReadWriteBuilder

def Setting.all : List Setting :=
  [.userTag, .userNotes, .ipMode, .ipAddress, .subnetMask, .gateway, .operatingMode, .scanFrequency,
    .samplesPerScan, .scanDirection, .hmiDisplayMode, .hmiLanguage, .hmiButtonLock,
    .hmiParameterLock, .locatorIndication, .hmiStaticLogo, .hmiStaticText1, .hmiStaticText2,
    .hmiApplicationBitmap, .hmiApplicationText1, .hmiApplicationText2, .hostname, .port, .watchdog,
    .watchdogTimeout, .packetType, .packetCrc, .startAngle, .numberOfPointsPerScan,
    .numberOfScanToSkip, .sensitivity, .detectionPeriod, .lcmState]

theorem Setting.mem_all (s : Setting) : s ∈ Setting.all := by cases s <;> decide

theorem Setting.parameters_nodup : (Setting.all.map Setting.parameter).Nodup := by decide

theorem Setting.parameter_injective : Function.Injective Setting.parameter := by
  intro s t h
  exact List.inj_on_of_nodup_map Setting.parameters_nodup (Setting.mem_all s) (Setting.mem_all t) h

section
variable {Call : Type} [ReadWriteBuilder Call]

def allCalls (calls : List Call) : List Call := ReadWriteBuilder.constructor ++ calls

def lastCall (s : Setting) (calls : List Call) : Option Call :=
  last (fun c => setting c = s) (allCalls calls)

/-- Each setting that was called has an entry of its own with the value of its last call. -/
structure Independent (calls : List Call) : Prop where
  lastValue : ∀ s c, lastCall s calls = some c → (build calls).lookup (key c) = some (value c)
  nothingElse : ∀ name text, (build calls).lookup name = some text →
    ∃ s c, lastCall s calls = some c ∧ key c = name ∧ value c = text
  ownEntries : Separates setting (key : Call → String) (allCalls calls)
  commute : ∀ calls', Interleaved setting calls calls' →
    ∀ name, (build calls').lookup name = (build calls).lookup name

def OwnParameters (calls : List Call) : Prop :=
  ∀ s c, lastCall s calls = some c → (build calls).lookup s.parameter = some (value c)

theorem setting_of_lastCall {s : Setting} {calls : List Call} {c : Call}
    (h : lastCall s calls = some c) : c ∈ allCalls calls ∧ setting c = s := by
  obtain ⟨hmem, hs⟩ := mem_of_last h
  exact ⟨hmem, of_decide_eq_true hs⟩

theorem exists_lastCall {calls : List Call} {c : Call} (hc : c ∈ allCalls calls) :
    ∃ d, lastCall (setting c) calls = some d := by
  apply last_of_mem hc
  exact decide_eq_true rfl

theorem interleaved_allCalls {calls calls' : List Call} (h : Interleaved setting calls calls') :
    Interleaved setting (allCalls calls) (allCalls calls') := by
  intro s
  rw [allCalls, allCalls, List.filter_append, List.filter_append, h s]

theorem independent_iff (hkey : ∀ c d : Call, setting c = setting d → key c = key d)
    (calls : List Call) :
    Independent calls ↔ Separates setting (key : Call → String) (allCalls calls) := by
  constructor
  · exact fun h => h.ownEntries
  · intro hsep
    have hlast : ∀ s c, lastCall s calls = some c →
        (build calls).lookup (key c) = some (value c) := by
      intro s c hc
      obtain ⟨hmem, rfl⟩ := setting_of_lastCall hc
      exact lookup_setting value hkey hsep hmem hc
    refine ⟨hlast, ?_, hsep, ?_⟩
    · intro name text hname
      have hmem : name ∈ build calls := AList.lookup_isSome.mp (Option.isSome_of_eq_some hname)
      obtain ⟨c, hc, rfl⟩ := (mem_writeAll key value (allCalls calls) name).mp hmem
      obtain ⟨d, hd⟩ := exists_lastCall hc
      have hkeys : key d = key c := hkey d c (setting_of_lastCall hd).2
      have hvalue := hlast (setting c) d hd
      rw [hkeys, hname] at hvalue
      exact ⟨setting c, d, hd, hkeys, (Option.some.inj hvalue).symm⟩
    · intro calls' h name
      exact lookup_interleaved value hkey hsep (interleaved_allCalls h) name

theorem separates_of_named {calls : List Call}
    (hnamed : ∀ c ∈ allCalls calls, key c = (setting c).parameter) :
    Separates setting (key : Call → String) (allCalls calls) := by
  intro c hc d hd hne hkey
  rw [hnamed c hc, hnamed d hd] at hkey
  exact hne (Setting.parameter_injective hkey)

theorem ownParameters_of_named (hkey : ∀ c d : Call, setting c = setting d → key c = key d)
    {calls : List Call} (hnamed : ∀ c ∈ allCalls calls, key c = (setting c).parameter) :
    OwnParameters calls := by
  intro s c hc
  obtain ⟨hmem, rfl⟩ := setting_of_lastCall hc
  rw [← hnamed c hmem]
  exact ((independent_iff hkey calls).mpr (separates_of_named hnamed)).lastValue _ c hc

end

class LawfulBuilder (Call : Type) [ReadWriteBuilder Call] : Prop where
  key_eq : ∀ c : Call, key c = (setting c).parameter

theorem LawfulBuilder.independent {Call : Type} [ReadWriteBuilder Call] [LawfulBuilder Call]
    (calls : List Call) : Independent calls ∧ OwnParameters calls := by
  have hnamed : ∀ c ∈ allCalls calls, key c = (setting c).parameter := fun c _ => key_eq c
  have hkey : ∀ c d : Call, setting c = setting d → key c = key d := by
    intro c d h
    rw [key_eq, key_eq, h]
  exact ⟨(independent_iff hkey calls).mpr (separates_of_named hnamed),
    ownParameters_of_named hkey hnamed⟩

instance : LawfulBuilder BasicInformation := ⟨fun c => by cases c <;> rfl⟩
instance : LawfulBuilder Measuring := ⟨fun c => by cases c <;> rfl⟩
instance : LawfulBuilder HmiDisplay := ⟨fun c => by cases c <;> rfl⟩
instance : LawfulBuilder HandleTcp := ⟨fun c => by cases c <;> rfl⟩
instance : LawfulBuilder HandleUdp := ⟨fun c => by cases c <;> rfl⟩
instance : LawfulBuilder LensContaminationMonitor := ⟨fun c => by cases c <;> rfl⟩

namespace Ethernet

def SetsIpMode (calls : List Ethernet) : Prop := ∃ mode, withIpMode mode ∈ calls

def SetsIpAddress (calls : List Ethernet) : Prop := ∃ ipAddress, withIpAddress ipAddress ∈ calls

theorem key_of_setting (c d : Ethernet) (h : setting c = setting d) : key c = key d := by
  cases c <;> cases d <;> first | rfl | cases h

theorem key_eq_of_ne {c : Ethernet} (h : setting c ≠ .ipMode) : key c = (setting c).parameter := by
  cases c with
  | withIpMode mode => exact absurd rfl h
  | _ => rfl

theorem eq_withIpMode {c : Ethernet} (h : setting c = .ipMode) : ∃ mode, c = withIpMode mode := by
  cases c with
  | withIpMode mode => exact ⟨mode, rfl⟩
  | _ => cases h

theorem clash {c d : Ethernet} (hne : setting c ≠ setting d) (hkey : key c = key d) :
    (setting c = .ipMode ∧ setting d = .ipAddress) ∨ (setting c = .ipAddress ∧ setting d = .ipMode) := by
  by_cases hc : setting c = .ipMode
  · have hd : setting d ≠ .ipMode := fun h => hne (hc.trans h.symm)
    rw [key_eq_of_ne hd] at hkey
    obtain ⟨mode, rfl⟩ := eq_withIpMode hc
    exact Or.inl ⟨hc, Setting.parameter_injective hkey.symm⟩
  · by_cases hd : setting d = .ipMode
    · rw [key_eq_of_ne hc] at hkey
      obtain ⟨mode, rfl⟩ := eq_withIpMode hd
      exact Or.inr ⟨Setting.parameter_injective hkey, hd⟩
    · rw [key_eq_of_ne hc, key_eq_of_ne hd] at hkey
      exact absurd (Setting.parameter_injective hkey) hne

theorem setsIpMode_iff (calls : List Ethernet) :
    SetsIpMode calls ↔ ∃ c ∈ allCalls calls, setting c = .ipMode := by
  constructor
  · intro h
    obtain ⟨mode, hmem⟩ := h
    exact ⟨_, hmem, rfl⟩
  · intro h
    obtain ⟨c, hmem, hc⟩ := h
    obtain ⟨mode, rfl⟩ := eq_withIpMode hc
    exact ⟨mode, hmem⟩

theorem setsIpAddress_iff (calls : List Ethernet) :
    SetsIpAddress calls ↔ ∃ c ∈ allCalls calls, setting c = .ipAddress := by
  constructor
  · intro h
    obtain ⟨ipAddress, hmem⟩ := h
    exact ⟨_, hmem, rfl⟩
  · intro h
    obtain ⟨c, hmem, hc⟩ := h
    cases c with
    | withIpAddress ipAddress => exact ⟨ipAddress, hmem⟩
    | _ => cases hc

theorem independent_iff (calls : List Ethernet) :
    Independent calls ↔ ¬ (SetsIpMode calls ∧ SetsIpAddress calls) := by
  rw [Parameters.independent_iff key_of_setting, setsIpMode_iff, setsIpAddress_iff]
  constructor
  · intro hsep hboth
    obtain ⟨⟨c, hc, hmode⟩, d, hd, haddress⟩ := hboth
    have hne : setting c ≠ setting d := by
      rw [hmode, haddress]
      decide
    have hd' : setting d ≠ .ipMode := by
      rw [haddress]
      decide
    apply hsep c hc d hd hne
    obtain ⟨mode, rfl⟩ := eq_withIpMode hmode
    rw [key_eq_of_ne hd', haddress]
    rfl
  · intro hnot c hc d hd hne hkey
    apply hnot
    rcases clash hne hkey with h | h
    · exact ⟨⟨c, hc, h.1⟩, d, hd, h.2⟩
    · exact ⟨⟨d, hd, h.2⟩, c, hc, h.1⟩

theorem key_ne_ipMode (c : Ethernet) : key c ≠ Setting.parameter .ipMode := by
  cases c <;> simp [ReadWriteBuilder.key, Setting.parameter]

theorem ownParameters_iff (calls : List Ethernet) :
    OwnParameters calls ↔ ¬ SetsIpMode calls := by
  rw [setsIpMode_iff]
  constructor
  · intro h hmode
    obtain ⟨c, hc, hmode⟩ := hmode
    obtain ⟨d, hd⟩ := exists_lastCall hc
    have hmem : (setting c).parameter ∈ build calls :=
      AList.lookup_isSome.mp (Option.isSome_of_eq_some (h _ d hd))
    obtain ⟨e, he, hkey⟩ := (mem_writeAll key value (allCalls calls) _).mp hmem
    rw [hmode] at hkey
    exact key_ne_ipMode e hkey
  · intro hnot
    apply ownParameters_of_named key_of_setting
    intro c hc
    apply key_eq_of_ne
    intro hmode
    exact hnot ⟨c, hc, hmode⟩

end Ethernet

namespace Builder

protected def Independent : Builder → Prop
  | basicInformation calls => Parameters.Independent calls
  | ethernet calls => Parameters.Independent calls
  | measuring calls => Parameters.Independent calls
  | hmiDisplay calls => Parameters.Independent calls
  | handleTcp calls => Parameters.Independent calls
  | handleUdp calls => Parameters.Independent calls
  | lensContaminationMonitor calls => Parameters.Independent calls

protected def OwnParameters : Builder → Prop
  | basicInformation calls => Parameters.OwnParameters calls
  | ethernet calls => Parameters.OwnParameters calls
  | measuring calls => Parameters.OwnParameters calls
  | hmiDisplay calls => Parameters.OwnParameters calls
  | handleTcp calls => Parameters.OwnParameters calls
  | handleUdp calls => Parameters.OwnParameters calls
  | lensContaminationMonitor calls => Parameters.OwnParameters calls

def SetsIpMode : Builder → Prop
  | ethernet calls => Ethernet.SetsIpMode calls
  | _ => False

def SetsIpAddress : Builder → Prop
  | ethernet calls => Ethernet.SetsIpAddress calls
  | _ => False

/-- The settings of a builder are independent unless the mode and the address of the Ethernet
section are both set, and the mode is never found under its own name. -/
theorem settings_independent_iff (builder : Builder) :
    (builder.Independent ↔ ¬ (builder.SetsIpMode ∧ builder.SetsIpAddress)) ∧
      (builder.OwnParameters ↔ ¬ builder.SetsIpMode) := by
  have hlawful : ∀ {Call : Type} [ReadWriteBuilder Call] [LawfulBuilder Call] (calls : List Call),
      (Parameters.Independent calls ↔ ¬ (False ∧ False)) ∧
        (Parameters.OwnParameters calls ↔ ¬ False) := by
    intro Call _ _ calls
    have h := LawfulBuilder.independent calls
    exact ⟨iff_of_true h.1 fun hf => hf.1, iff_of_true h.2 id⟩
  cases builder with
  | ethernet calls => exact ⟨Ethernet.independent_iff calls, Ethernet.ownParameters_iff calls⟩
  | basicInformation calls => exact hlawful calls
  | measuring calls => exact hlawful calls
  | hmiDisplay calls => exact hlawful calls
  | handleTcp calls => exact hlawful calls
  | handleUdp calls => exact hlawful calls
  | lensContaminationMonitor calls => exact hlawful calls

end Builder

def exampleCalls : List Ethernet :=
  [.withGateway "192.168.1.1", .withIpAddress "192.168.1.72", .withIpMode .static,
    .withSubnetMask "255.255.255.0"]

theorem ipMode_overwrites_ipAddress :
    (build exampleCalls).lookup "ip_address" = some "static" ∧
      (build exampleCalls).lookup "ip_mode" = none ∧
      ¬ (Builder.ethernet exampleCalls).Independent ∧
      ¬ (Builder.ethernet exampleCalls).OwnParameters := by
  have haddress : (build exampleCalls).lookup "ip_address" = some "static" := by decide
  have hmode : (build exampleCalls).lookup "ip_mode" = none := by decide
  refine ⟨haddress, hmode, ?_, ?_⟩
  · intro h
    have hlast := h.lastValue .ipAddress (.withIpAddress "192.168.1.72") (by decide)
    have hstatic : some "static" = some "192.168.1.72" := haddress.symm.trans hlast
    revert hstatic
    decide
  · intro h
    have hlast := h .ipMode (.withIpMode .static) (by decide)
    cases hmode.symm.trans hlast

end R2000Driver.Parameters

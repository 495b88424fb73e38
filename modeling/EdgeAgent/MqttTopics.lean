import EdgeAgent.AgentConfig
import EdgeAgent.SeparatedTexts

/-!
# The topics of a device

A topic is a pattern in which the tenant and then the device are filled in.
-/
namespace EdgeAgent.Host
open SeparatedTexts

/-- `str::replace` of a pattern that is not empty. -/
def replaceText (pattern value s : String) : String :=
  String.ofList (replace pattern.toList value.toList s.toList)

theorem toList_replaceText (pattern value s : String) :
    (replaceText pattern value s).toList = replace pattern.toList value.toList s.toList :=
  String.toList_ofList

theorem split_slash (a b : String) : split '/' (a ++ "/" ++ b) = split '/' a ++ split '/' b := by
  have hlist : (a ++ "/" ++ b).toList = a.toList ++ '/' :: b.toList := by simp
  rw [split, hlist, List.splitOn_append_cons_self, List.map_append]
  rfl

theorem split_of_notMem {s : String} (h : '/' ∉ s.toList) : split '/' s = [s] := by
  rw [split, List.splitOn_eq_singleton h]
  simp

theorem split_injective (sep : Char) : Function.Injective (split sep) := by
  intro a b hsplit
  have hlists : a.toList.splitOn sep = b.toList.splitOn sep :=
    List.map_injective_iff.mpr (fun _ _ => String.ofList_injective) hsplit
  have hjoined := congrArg ([sep].intercalate ·) hlists
  simp only [List.intercalate_splitOn] at hjoined
  exact String.toList_inj.mp hjoined

end EdgeAgent.Host

namespace EdgeAgent.Config
open Host SeparatedTexts

/-! ## Patterns -/

def defaultStatusTopic : String := "tenants/{tenant_id}/devices/{device_id}/status"

def defaultTelemetryTopic : String := "tenants/{tenant_id}/devices/{device_id}/telemetry"

def defaultResponsesTopic : String := "tenants/{tenant_id}/devices/{device_id}/responses"

def defaultCommandsTopic : String := "tenants/{tenant_id}/devices/{device_id}/commands"

def defaultConfigTopic : String := "tenants/{tenant_id}/devices/{device_id}/config"

structure MqttTopics where
  status : String
  telemetry : String
  responses : String
  commands : String
  config : String
  deriving DecidableEq

structure ResolvedTopics where
  status : String
  telemetry : String
  responses : String
  commands : String
  config : String
  deriving DecidableEq

def ResolvedTopics.all (topics : ResolvedTopics) : List String :=
  [topics.status, topics.telemetry, topics.responses, topics.commands, topics.config]

namespace MqttTopics

def default : MqttTopics where
  status := defaultStatusTopic
  telemetry := defaultTelemetryTopic
  responses := defaultResponsesTopic
  commands := defaultCommandsTopic
  config := defaultConfigTopic

/-- Fill in the tenant, then the device, also where the tenant names its place. -/
def resolvePattern (tenantId deviceId pattern : String) : String :=
  replaceText "{device_id}" deviceId (replaceText "{tenant_id}" tenantId pattern)

def resolve (topics : MqttTopics) (tenantId deviceId : String) : ResolvedTopics where
  status := resolvePattern tenantId deviceId topics.status
  telemetry := resolvePattern tenantId deviceId topics.telemetry
  responses := resolvePattern tenantId deviceId topics.responses
  commands := resolvePattern tenantId deviceId topics.commands
  config := resolvePattern tenantId deviceId topics.config

end MqttTopics

/-! ## The whole configuration -/

/-- The configuration with the values of the activation. `username`, `password`, `topics`,
`keepaliveSecs` and `cleanSession` are fields of `mqtt`. -/
structure DeviceConfig extends AgentConfig where
  provisioningToken : Option String
  tenantId : Option String
  username : Option String
  password : Option String
  topics : MqttTopics
  keepaliveSecs : UInt64
  cleanSession : Bool

def DeviceConfig.getResolvedTopics (config : DeviceConfig) : Option ResolvedTopics :=
  config.tenantId.map fun tenantId => config.topics.resolve tenantId config.deviceId

/-! ## What a default topic reads -/

/-- The level of the tenant. A tenant that names the place of the device reads the device. -/
def tenantLevel (tenantId deviceId : String) : String := replaceText "{device_id}" deviceId tenantId

theorem tenantLevel_of_notMem {tenantId : String} (h : '{' ∉ tenantId.toList) (deviceId : String) :
    tenantLevel tenantId deviceId = tenantId := by
  have hplace : "{device_id}".toList = '{' :: "device_id\x7d".toList := rfl
  rw [tenantLevel, replaceText, hplace, replace_of_head_notMem h, String.ofList_toList]

theorem replace_tenant (tenantId : List Char) {kind : List Char} (h : '{' ∉ kind) :
    replace "{tenant_id}".toList tenantId
        ("tenants/".toList ++ ("{tenant_id}".toList ++
          ("/devices/".toList ++ ("{device_id}".toList ++ '/' :: kind)))) =
      "tenants/".toList ++ (tenantId ++
        ("/devices/".toList ++ ("{device_id}".toList ++ '/' :: kind))) := by
  have htenant : "{tenant_id}".toList = '{' :: "tenant_id\x7d".toList := rfl
  have hdevice : "{device_id}".toList = '{' :: "device_id\x7d".toList := rfl
  have hother :
      ¬ '{' :: "tenant_id\x7d".toList <+: '{' :: ("device_id\x7d".toList ++ '/' :: kind) := by
    intro hoccurs
    have hrest := (List.cons_prefix_cons.mp hoccurs).2
    exact absurd (List.cons_prefix_cons.mp hrest).1 (by decide)
  have hrest : '{' ∉ "device_id\x7d".toList ++ '/' :: kind := by
    simp only [List.mem_append, List.mem_cons, not_or]
    exact ⟨by decide, by decide, h⟩
  rw [htenant, replace_append_of_head_notMem (by decide), ← htenant,
    replace_append_self (by decide), htenant, replace_append_of_head_notMem (by decide), hdevice,
    List.cons_append, replace_cons_of_absent hother, replace_of_head_notMem hrest]

theorem replace_device (tenantId deviceId : List Char) {kind : List Char} (h : '{' ∉ kind) :
    replace "{device_id}".toList deviceId
        ("tenants/".toList ++ (tenantId ++
          ("/devices/".toList ++ ("{device_id}".toList ++ '/' :: kind)))) =
      "tenants/".toList ++ (replace "{device_id}".toList deviceId tenantId ++
        ("/devices/".toList ++ (deviceId ++ '/' :: kind))) := by
  have hdevice : "{device_id}".toList = '{' :: "device_id\x7d".toList := rfl
  have hslash : "/devices/".toList = '/' :: "devices/".toList := rfl
  have hrest : '{' ∉ '/' :: kind := by
    simp only [List.mem_cons, not_or]
    exact ⟨by decide, h⟩
  rw [hdevice, replace_append_of_head_notMem (by decide), ← hdevice, hslash, List.cons_append,
    replace_append_cons (by decide) (by decide), ← List.cons_append, ← hslash, hdevice,
    replace_append_of_head_notMem (by decide), ← hdevice, replace_append_self (by decide), hdevice,
    replace_of_head_notMem hrest]

theorem resolvePattern_default (tenantId deviceId : String) {kind : String}
    (h : '{' ∉ kind.toList) :
    MqttTopics.resolvePattern tenantId deviceId
        ("tenants/{tenant_id}/devices/{device_id}/" ++ kind) =
      "tenants" ++ "/" ++ tenantLevel tenantId deviceId ++ "/" ++ "devices" ++ "/" ++ deviceId ++
        "/" ++ kind := by
  have hpattern : ("tenants/{tenant_id}/devices/{device_id}/" ++ kind).toList =
      "tenants/".toList ++ ("{tenant_id}".toList ++
        ("/devices/".toList ++ ("{device_id}".toList ++ '/' :: kind.toList))) := by
    rw [String.toList_append]
    rfl
  rw [← String.toList_inj, MqttTopics.resolvePattern, toList_replaceText, toList_replaceText,
    hpattern, replace_tenant _ h, replace_device _ _ h, tenantLevel]
  simp [toList_replaceText]

end EdgeAgent.Config

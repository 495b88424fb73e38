import EdgeAgent.ConfigConsumers
import EdgeAgent.MqttTopics

/-!
# Topics of different devices

The ids of a device are filled into its topics as they are. What the topics of two devices have
in common is decided by the levels of both ids.
-/
namespace EdgeAgent.Config
open Host SeparatedTexts

def HasWildcard (s : String) : Prop := '+' ∈ s.toList ∨ '#' ∈ s.toList

structure ResolvedTopics.Isolated (topics topics' : ResolvedTopics) : Prop where
  disjoint : ∀ topic ∈ topics.all, ∀ topic' ∈ topics'.all, topic ≠ topic'
  noWildcard : ∀ topic ∈ topics.all ++ topics'.all, ¬HasWildcard topic

/-! ## The topics of one device -/

def topicKinds : List String := ["status", "telemetry", "responses", "commands", "config"]

def defaultTopic (tenantId deviceId kind : String) : String :=
  "tenants" ++ "/" ++ tenantLevel tenantId deviceId ++ "/" ++ "devices" ++ "/" ++ deviceId ++ "/" ++
    kind

private theorem defaultTopic_eq (tenantId deviceId kind : String) :
    defaultTopic tenantId deviceId kind =
      "tenants" ++ "/" ++ tenantLevel tenantId deviceId ++ "/" ++ "devices" ++ "/" ++ deviceId ++
        "/" ++ kind := by
  delta defaultTopic
  rfl

private theorem resolve_default (tenantId deviceId : String) :
    (MqttTopics.default.resolve tenantId deviceId).all =
      topicKinds.map (defaultTopic tenantId deviceId) := by
  have hkind : ∀ kind ∈ topicKinds, MqttTopics.resolvePattern tenantId deviceId
      ("tenants/{tenant_id}/devices/{device_id}/" ++ kind) =
      defaultTopic tenantId deviceId kind := by
    intro kind hmem
    apply resolvePattern_default
    have hbraces : ∀ kind ∈ topicKinds, '{' ∉ kind.toList := by decide
    exact hbraces kind hmem
  rw [← List.map_congr_left hkind]
  rfl

theorem forall_mem_resolve (tenantId deviceId : String) {p : String → Prop} :
    (∀ topic ∈ (MqttTopics.default.resolve tenantId deviceId).all, p topic) ↔
      ∀ kind ∈ topicKinds, p (defaultTopic tenantId deviceId kind) := by
  rw [resolve_default, List.forall_mem_map]

theorem split_defaultTopic (tenantId deviceId : String) {kind : String} (h : kind ∈ topicKinds) :
    split '/' (defaultTopic tenantId deviceId kind) =
      "tenants" ::
        ((split '/' (tenantLevel tenantId deviceId) ++ "devices" :: split '/' deviceId) ++
        [kind]) := by
  have hslash : ∀ kind ∈ topicKinds, '/' ∉ kind.toList := by decide
  have htenants : split '/' "tenants" = ["tenants"] := split_of_notMem (by decide)
  have hdevices : split '/' "devices" = ["devices"] := split_of_notMem (by decide)
  rw [defaultTopic_eq, split_slash, split_slash, split_slash, split_slash,
    split_of_notMem (hslash kind h), htenants, hdevices]
  simp

private theorem defaultTopic_eq_iff {tenantId deviceId tenantId' deviceId' kind kind' : String}
    (h : kind ∈ topicKinds) (h' : kind' ∈ topicKinds) :
    defaultTopic tenantId deviceId kind = defaultTopic tenantId' deviceId' kind' ↔
      kind = kind' ∧
        split '/' (tenantLevel tenantId deviceId) ++ "devices" :: split '/' deviceId =
          split '/' (tenantLevel tenantId' deviceId') ++ "devices" :: split '/' deviceId' := by
  rw [← (split_injective '/').eq_iff, split_defaultTopic _ _ h, split_defaultTopic _ _ h']
  constructor
  · intro heq
    obtain ⟨hlevels, hkind⟩ := List.append_inj' (List.cons.inj heq).2 rfl
    exact ⟨(List.cons.inj hkind).1, hlevels⟩
  · intro hboth
    obtain ⟨rfl, hlevels⟩ := hboth
    rw [hlevels]

theorem mem_defaultTopic {c : Char} (hc : c ∈ ['+', '#']) (tenantId deviceId : String)
    {kind : String} (h : kind ∈ topicKinds) :
    c ∈ (defaultTopic tenantId deviceId kind).toList ↔
      c ∈ tenantId.toList ∨ c ∈ deviceId.toList := by
  have hmarks : ∀ text ∈ ["tenants", "/", "devices", "{device_id}"] ++ topicKinds,
      '+' ∉ text.toList ∧ '#' ∉ text.toList := by decide
  have hplain : ∀ text ∈ ["tenants", "/", "devices", "{device_id}"] ++ topicKinds,
      c ∉ text.toList := by
    intro text htext
    obtain ⟨hplus, hhash⟩ := hmarks text htext
    simp only [List.mem_cons, List.not_mem_nil, or_false] at hc
    rcases hc with rfl | rfl
    · exact hplus
    · exact hhash
  have hplace : c ∉ "{device_id}".toList := hplain _ (by decide)
  have htenant : c ∈ (tenantLevel tenantId deviceId).toList → c ∈ tenantId.toList ∨
      c ∈ deviceId.toList := by
    rw [tenantLevel, toList_replaceText]
    exact mem_of_mem_replace (by decide)
  have hstays : c ∈ tenantId.toList → c ∈ (tenantLevel tenantId deviceId).toList := by
    rw [tenantLevel, toList_replaceText]
    exact mem_replace_of_mem (by decide) hplace
  simp only [defaultTopic_eq, String.toList_append, List.mem_append, hplain "tenants" (by decide),
    hplain "/" (by decide), hplain "devices" (by decide),
    hplain kind (List.mem_append_right _ h), false_or, or_false]
  constructor
  · intro hmem
    rcases hmem with hmem | hmem
    · exact htenant hmem
    · exact Or.inr hmem
  · intro hmem
    exact hmem.imp_left hstays

private theorem hasWildcard_defaultTopic (tenantId deviceId : String) {kind : String}
    (h : kind ∈ topicKinds) :
    HasWildcard (defaultTopic tenantId deviceId kind) ↔
      HasWildcard tenantId ∨ HasWildcard deviceId := by
  rw [HasWildcard, mem_defaultTopic (by decide) _ _ h, mem_defaultTopic (by decide) _ _ h,
    HasWildcard, HasWildcard, or_or_or_comm]

/-! ## Two devices -/

/-- No id has a wildcard, the ids differ also with the device filled in, and no tenant runs on in
the other one behind a level `devices` that its device repeats. -/
structure Distinguishable (tenantId deviceId tenantId' deviceId' : String) : Prop where
  plain : ∀ id ∈ [tenantId, deviceId, tenantId', deviceId'], ¬HasWildcard id
  differ : ¬(tenantLevel tenantId deviceId = tenantLevel tenantId' deviceId' ∧
    deviceId = deviceId')
  apart : ¬RunsOn "devices" (split '/' (tenantLevel tenantId deviceId)) (split '/' deviceId)
    (split '/' (tenantLevel tenantId' deviceId')) (split '/' deviceId')
  apart' : ¬RunsOn "devices" (split '/' (tenantLevel tenantId' deviceId')) (split '/' deviceId')
    (split '/' (tenantLevel tenantId deviceId)) (split '/' deviceId)

/-- Two devices have a topic in common if and only if their levels are the same. -/
theorem disjoint_iff (tenantId deviceId tenantId' deviceId' : String) :
    (∀ topic ∈ (MqttTopics.default.resolve tenantId deviceId).all,
        ∀ topic' ∈ (MqttTopics.default.resolve tenantId' deviceId').all, topic ≠ topic') ↔
      split '/' (tenantLevel tenantId deviceId) ++ "devices" :: split '/' deviceId ≠
        split '/' (tenantLevel tenantId' deviceId') ++ "devices" :: split '/' deviceId' := by
  rw [forall_mem_resolve]
  simp only [forall_mem_resolve]
  constructor
  · intro h hlevels
    have hstatus : "status" ∈ topicKinds := by decide
    exact h _ hstatus _ hstatus ((defaultTopic_eq_iff hstatus hstatus).mpr ⟨rfl, hlevels⟩)
  · intro h kind hkind kind' hkind' heq
    exact h ((defaultTopic_eq_iff hkind hkind').mp heq).2

theorem noWildcard_iff (tenantId deviceId : String) :
    (∀ topic ∈ (MqttTopics.default.resolve tenantId deviceId).all, ¬HasWildcard topic) ↔
      ¬HasWildcard tenantId ∧ ¬HasWildcard deviceId := by
  rw [forall_mem_resolve, ← not_or]
  constructor
  · intro h
    have hstatus : "status" ∈ topicKinds := by decide
    exact mt (hasWildcard_defaultTopic _ _ hstatus).mpr (h _ hstatus)
  · intro h kind hkind
    exact mt (hasWildcard_defaultTopic _ _ hkind).mp h

private theorem isolated_iff (tenantId deviceId tenantId' deviceId' : String) :
    (MqttTopics.default.resolve tenantId deviceId).Isolated
        (MqttTopics.default.resolve tenantId' deviceId') ↔
      Distinguishable tenantId deviceId tenantId' deviceId' := by
  have hlevels : split '/' (tenantLevel tenantId deviceId) ++ "devices" :: split '/' deviceId =
      split '/' (tenantLevel tenantId' deviceId') ++ "devices" :: split '/' deviceId' ↔ _ :=
    append_mark_eq_iff
  rw [(split_injective '/').eq_iff, (split_injective '/').eq_iff] at hlevels
  constructor
  · intro h
    have hne := (disjoint_iff tenantId deviceId tenantId' deviceId').mp h.disjoint
    rw [Ne, hlevels, not_or, not_or] at hne
    obtain ⟨hplain, hplain'⟩ := List.forall_mem_append.mp h.noWildcard
    rw [noWildcard_iff] at hplain hplain'
    exact {
      plain := by
        intro id hid
        simp only [List.mem_cons, List.not_mem_nil, or_false] at hid
        rcases hid with rfl | rfl | rfl | rfl
        · exact hplain.1
        · exact hplain.2
        · exact hplain'.1
        · exact hplain'.2
      differ := hne.1
      apart := hne.2.1
      apart' := hne.2.2 }
  · intro h
    have hplain : (¬HasWildcard tenantId ∧ ¬HasWildcard deviceId) ∧
        ¬HasWildcard tenantId' ∧ ¬HasWildcard deviceId' :=
      ⟨⟨h.plain _ (by simp), h.plain _ (by simp)⟩, h.plain _ (by simp), h.plain _ (by simp)⟩
    constructor
    · rw [disjoint_iff, Ne, hlevels, not_or, not_or]
      exact ⟨h.differ, h.apart, h.apart'⟩
    · intro topic hmem
      rw [← noWildcard_iff, ← noWildcard_iff] at hplain
      exact (List.mem_append.mp hmem).elim (hplain.1 topic) (hplain.2 topic)

theorem distinguishable_of_plain {tenantId deviceId tenantId' deviceId' : String}
    (h : ∀ id ∈ [tenantId, deviceId, tenantId', deviceId'],
      ∀ c ∈ ['+', '#', '/', '{'], c ∉ id.toList)
    (hne : (tenantId, deviceId) ≠ (tenantId', deviceId')) :
    Distinguishable tenantId deviceId tenantId' deviceId' := by
  have hon : ∀ id ∈ [tenantId, deviceId, tenantId', deviceId'],
      ∀ id' ∈ [tenantId, deviceId, tenantId', deviceId'], ∀ right right' : List String,
        ¬RunsOn "devices" (split '/' id) right (split '/' id') right' := by
    intro id hid id' hid' right right' hon
    obtain ⟨between, hleft, -⟩ := hon
    have hlength := congrArg List.length hleft
    rw [split_of_notMem (h id hid '/' (by decide)), split_of_notMem (h id' hid' '/' (by decide)),
      List.length_append, List.length_cons, List.length_cons] at hlength
    simp at hlength
  have htenant := tenantLevel_of_notMem (h tenantId (by simp) '{' (by decide)) deviceId
  have htenant' := tenantLevel_of_notMem (h tenantId' (by simp) '{' (by decide)) deviceId'
  constructor
  · intro id hid hwild
    rcases hwild with hwild | hwild
    · exact h id hid '+' (by decide) hwild
    · exact h id hid '#' (by decide) hwild
  · rw [htenant, htenant']
    exact fun hsame => hne (Prod.ext hsame.1 hsame.2)
  · rw [htenant, htenant']
    exact hon _ (by simp) _ (by simp) _ _
  · rw [htenant, htenant']
    exact hon _ (by simp) _ (by simp) _ _

/-- The resolved topics of two configurations with the default patterns are isolated exactly if
their ids can be told apart. The check of the configuration does not look at this. -/
theorem resolvedTopics_isolated_iff {config config' : DeviceConfig}
    {tenantId tenantId' : String} (htenant : config.tenantId = some tenantId)
    (htenant' : config'.tenantId = some tenantId') (htopics : config.topics = .default)
    (htopics' : config'.topics = .default) :
    (∀ topics ∈ config.getResolvedTopics, ∀ topics' ∈ config'.getResolvedTopics,
        topics.Isolated topics') ↔
      Distinguishable tenantId config.deviceId tenantId' config'.deviceId := by
  rw [DeviceConfig.getResolvedTopics, DeviceConfig.getResolvedTopics, htenant, htenant', htopics,
    htopics', ← isolated_iff]
  simp

/-! ## Devices that pass the check -/

/-- A configuration with its ids, and everything else as plain as it can be. -/
def plainConfig (tenantId deviceId : String) : DeviceConfig where
  deviceId := deviceId
  deviceCode := "RPI-1"
  apiUrl := "https://api"
  mqtt := ⟨none, 1883, ⟨false, none, none, none⟩⟩
  telemetry := ⟨30⟩
  modbus := []
  gpio := []
  provisioningToken := none
  tenantId := some tenantId
  username := none
  password := none
  topics := .default
  keepaliveSecs := 30
  cleanSession := false

private theorem plainConfig_resolvedTopics (tenantId deviceId : String) :
    (plainConfig tenantId deviceId).getResolvedTopics =
      some (MqttTopics.default.resolve tenantId deviceId) := rfl

theorem resolvedTopics_isolated_iff_farms :
    (MqttTopics.default.resolve "farm" "pump").Isolated
      (MqttTopics.default.resolve "farm" "lamp") := by
  have hdistinguishable : Distinguishable "farm" "pump" "farm" "lamp" := by
    apply distinguishable_of_plain
    · simp
    · decide
  have hpump := plainConfig_resolvedTopics "farm" "pump"
  have hlamp := plainConfig_resolvedTopics "farm" "lamp"
  exact (resolvedTopics_isolated_iff rfl rfl rfl rfl).mpr hdistinguishable _ hpump _ hlamp

/-- All three devices pass the check. The first two listen to the same commands, and the third to
the commands of its whole tenant. -/
theorem sharedTopics_validated :
    ((plainConfig "farm" "north/devices/pump").validate bareHost = .ok () ∧
        (plainConfig "farm/devices/north" "pump").validate bareHost = .ok () ∧
          (plainConfig "farm" "+").validate bareHost = .ok ()) ∧
      ((MqttTopics.default.resolve "farm" "north/devices/pump").commands =
          "tenants/farm/devices/north/devices/pump/commands" ∧
        (MqttTopics.default.resolve "farm/devices/north" "pump").commands =
          "tenants/farm/devices/north/devices/pump/commands" ∧
        (MqttTopics.default.resolve "farm" "+").commands = "tenants/farm/devices/+/commands") := by
  have hcommands : ∀ tenantId deviceId, '{' ∉ tenantId.toList →
      (MqttTopics.default.resolve tenantId deviceId).commands =
        "tenants/" ++ tenantId ++ "/devices/" ++ deviceId ++ "/commands" := by
    intro tenantId deviceId h
    have hpattern : defaultCommandsTopic =
        "tenants/{tenant_id}/devices/{device_id}/" ++ "commands" := rfl
    change MqttTopics.resolvePattern tenantId deviceId defaultCommandsTopic = _
    rw [hpattern, resolvePattern_default _ _ (by decide), tenantLevel_of_notMem h,
      ← String.toList_inj]
    simp
  refine ⟨⟨rfl, rfl, rfl⟩, ?_, ?_, ?_⟩
  · exact hcommands _ _ (by decide)
  · exact hcommands _ _ (by decide)
  · exact hcommands _ _ (by decide)

end EdgeAgent.Config

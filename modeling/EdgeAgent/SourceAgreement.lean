import EdgeAgent.RetainReadability
import EdgeAgent.WiringPhases

/-!
# Sources of conditions and of block inputs

A condition cuts its source at the colons and reads the second part. The wiring of a block input
takes everything after the kind. For a name with a colon the two look up different names.
-/
namespace EdgeAgent.Scripting
open FiniteMaps Host Json

inductive SourceKind where
  | sensor | gpio | var

namespace SourceKind

def word : SourceKind → String
  | .sensor => "sensor"
  | .gpio => "gpio"
  | .var => "var"

def source (kind : SourceKind) (name : String) : String := kind.word ++ ":" ++ name

def held (kind : SourceKind) (ctx : ScriptContext) (name : String) : Option Value :=
  match kind with
  | .sensor => (ctx.getSensor name).map ofF64
  | .gpio => ((parseU8 name).bind ctx.getGpio).map Value.bool
  | .var => ctx.getVariable name

private theorem notMem_word (kind : SourceKind) : ':' ∉ kind.word.toList := by
  cases kind <;> decide

end SourceKind

/-! ## What each of them reads -/

/-- A source is cut into its kind, the name up to the next colon, and the rest. -/
theorem split_source (kind : SourceKind) (name : String) :
    ∃ rest, ((kind.source name).toList.splitOn ':').map String.ofList =
      kind.word :: sourceName name :: rest := by
  obtain ⟨rest, hrest⟩ := splitOn_eq_takeWhile_cons ':' name.toList
  have hsplit : (kind.source name).toList.splitOn ':' =
      kind.word.toList :: name.toList.takeWhile (· ≠ ':') :: rest := by
    rw [SourceKind.source, String.append_assoc, String.toList_append, String.toList_append, ← hrest]
    exact List.splitOn_append_cons_self_of_not_mem kind.notMem_word name.toList
  refine ⟨rest.map String.ofList, ?_⟩
  rw [hsplit, List.map_cons, List.map_cons, String.ofList_toList]
  rfl

/-- A condition reads the name up to its first colon. -/
theorem getValue_source (ctx : ScriptContext) (utc : UtcReading) (kind : SourceKind)
    (name : String) : ctx.getValue utc (kind.source name) = kind.held ctx (sourceName name) := by
  obtain ⟨rest, hsplit⟩ := split_source kind name
  rw [ScriptContext.getValue, hsplit]
  cases kind <;> rfl

theorem sourceValue_source (text : JsonText) (ctx : ScriptContext)
    (outputs : String → String → Option Value) (kind : SourceKind) (name : String) :
    sourceValue text ctx outputs (kind.source name) = kind.held ctx name := by
  cases kind with
  | sensor =>
    have hlead : stripPrefix "sensor:" (SourceKind.sensor.source name) = some name :=
      stripPrefix_append _ _
    simp only [sourceValue, hlead]
    rfl
  | gpio =>
    have hsensor : stripPrefix "sensor:" (SourceKind.gpio.source name) = none := by
      simp [stripPrefix, SourceKind.source, SourceKind.word]
    have hlead : stripPrefix "gpio:" (SourceKind.gpio.source name) = some name :=
      stripPrefix_append _ _
    simp only [sourceValue, hsensor, hlead]
    rfl
  | var =>
    have hsensor : stripPrefix "sensor:" (SourceKind.var.source name) = none := by
      simp [stripPrefix, SourceKind.source, SourceKind.word]
    have hgpio : stripPrefix "gpio:" (SourceKind.var.source name) = none := by
      simp [stripPrefix, SourceKind.source, SourceKind.word]
    have hlead : stripPrefix "var:" (SourceKind.var.source name) = some name :=
      stripPrefix_append _ _
    simp only [sourceValue, hsensor, hgpio, hlead]
    rfl

/-! ## Where they agree -/

private theorem sourceName_of_notMem {name : String} (h : ':' ∉ name.toList) :
    sourceName name = name := by
  rw [sourceName, List.takeWhile_eq_self_iff.mpr, String.ofList_toList]
  intro c hc
  have hne : c ≠ ':' := fun heq => h (heq ▸ hc)
  simpa using hne

/-- A name with a colon is no pin number. -/
theorem parseU8_of_mem {name : String} (h : ':' ∈ name.toList) : parseU8 name = none := by
  have hnot : ∀ cs : List Char, ':' ∈ cs → ¬(cs ≠ [] ∧ cs.all Char.isDigit = true) := by
    rintro cs hcs ⟨-, hall⟩
    have hdigit := List.all_eq_true.mp hall ':' hcs
    exact absurd hdigit (by decide)
  rw [parseU8]
  dsimp only
  split
  · next rest hplus =>
    rw [hplus] at h
    have hrest : ':' ∈ rest := by simpa using h
    rw [if_neg (hnot rest hrest)]
  · rw [if_neg (hnot name.toList h)]

/-- The context holds under the whole name what it holds under the part before the first colon.
A pin has no name with a colon. -/
def SourceKind.HeldAlike (kind : SourceKind) (ctx : ScriptContext) (name : String) : Prop :=
  match kind with
  | .sensor => (ctx.getSensor (sourceName name)).map ofF64 = (ctx.getSensor name).map ofF64
  | .gpio => (parseU8 (sourceName name)).bind ctx.getGpio = none
  | .var => ctx.getVariable (sourceName name) = ctx.getVariable name

private theorem held_eq_iff {name : String} (h : ':' ∈ name.toList) (kind : SourceKind)
    (ctx : ScriptContext) :
    kind.held ctx (sourceName name) = kind.held ctx name ↔ kind.HeldAlike ctx name := by
  cases kind with
  | sensor => exact Iff.rfl
  | var => exact Iff.rfl
  | gpio =>
    rw [SourceKind.held, SourceKind.held, parseU8_of_mem h]
    exact Option.map_eq_none_iff

/-- A condition and a block input with the same source get the same, unless the name has a colon
and the context tells it from its first part. -/
theorem getValue_eq_sourceValue_iff (text : JsonText) (ctx : ScriptContext) (utc : UtcReading)
    (outputs : String → String → Option Value) (kind : SourceKind) (name : String) :
    ctx.getValue utc (kind.source name) = sourceValue text ctx outputs (kind.source name) ↔
      (':' ∈ name.toList → kind.HeldAlike ctx name) := by
  rw [getValue_source, sourceValue_source]
  by_cases hcolon : ':' ∈ name.toList
  · rw [held_eq_iff hcolon]
    simp [hcolon]
  · rw [sourceName_of_notMem hcolon]
    simp [hcolon]

/-- A retained variable reaches a block input and no condition. -/
theorem retainedSource_differs :
    ¬∀ (text : JsonText) (ctx : ScriptContext) (utc : UtcReading)
      (outputs : String → String → Option Value) (kind : SourceKind) (name : String),
      ctx.getValue utc (kind.source name) = sourceValue text ctx outputs (kind.source name) := by
  intro h
  let calendar : CalendarReading := ⟨0, 0, 0, 1, 1, 1970, 3⟩
  have hread := h ⟨fun _ => none, fun _ => "", fun _ => ""⟩
    ((ScriptContext.new 0).setVariable "pump:mode" (.bool true)) ⟨0, fun _ => calendar⟩
    (fun _ _ => none) .var "pump:mode"
  rw [getValue_source, sourceValue_source] at hread
  have hpart : SourceKind.var.held
      ((ScriptContext.new 0).setVariable "pump:mode" (.bool true)) (sourceName "pump:mode") =
        none := by
    have hname : sourceName "pump:mode" = "pump" := by decide
    rw [hname]
    rfl
  have hwhole : SourceKind.var.held
      ((ScriptContext.new 0).setVariable "pump:mode" (.bool true)) "pump:mode" =
        some (.bool true) := rfl
  rw [hpart, hwhole] at hread
  cases hread

end EdgeAgent.Scripting

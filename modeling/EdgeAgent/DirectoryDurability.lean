import EdgeAgent.ScriptDirectory

/-!
# Restarts of the script storage

Memory is keyed by the id of a definition and the disk by file name. A script that was
loaded from a file of another name or extension is deleted and rewritten under `<id>.json`
only, so its old file comes back at the next load.
-/
namespace EdgeAgent.Scripting
open FiniteMaps FileBackedMaps StateMachines LastWriterWins

def definitionIn (text : DefinitionText) (name content : String) : Option ScriptDefinition :=
  if ScriptDirectory.loadable name then ScriptDirectory.parseScriptFile text name content
  else none

private theorem definitionIn_scriptFileName (text : DefinitionText) {id : String} (h : id ≠ "")
    (content : String) :
    definitionIn text (scriptFileName id) content = text.parseJson content := by
  have hextension := extension_scriptFileName h
  rw [definitionIn, ScriptDirectory.loadable, ScriptDirectory.parseScriptFile, hextension]
  rfl

namespace ScriptDirectory
variable {text : DefinitionText} {d : ScriptDirectory}

def onDisk (text : DefinitionText) (d : ScriptDirectory) : String → Option ScriptDefinition :=
  parsed (definitionIn text) d.files

/-- Loading the directory in any order gives the definitions that are in memory. -/
def Durable (text : DefinitionText) (d : ScriptDirectory) : Prop :=
  ∀ listing, Enumerates listing d.files → ∀ now id,
    (d.loadAll text now listing).definitionOf id = d.definitionOf id

/-- No two files hold different definitions of one script. -/
def Unambiguous (text : DefinitionText) (d : ScriptDirectory) : Prop :=
  ∀ name name' definition definition', d.onDisk text name = some definition →
    d.onDisk text name' = some definition' → definition.id = definition'.id →
      definition = definition'

theorem lookup_loadEntry (text : DefinitionText) (now : String → UtcReading)
    (files : HashMap String String)
    (scripts : HashMap String Script) (name id : String) :
    ((loadEntry text now files scripts name).lookup id).map Script.definition =
      match parsed (definitionIn text) files name with
      | some definition =>
        if id = definition.id then some definition
        else (scripts.lookup id).map Script.definition
      | none => (scripts.lookup id).map Script.definition := by
  rw [loadEntry, parsed]
  cases files.lookup name with
  | none =>
    simp only [Option.bind_none, ite_self]
  | some content =>
    simp only [Option.bind_some, loadScriptFile, definitionIn]
    by_cases hname : loadable name = true
    · simp only [hname, if_true]
      cases parseScriptFile text name content with
      | none => rfl
      | some definition =>
        simp only [Option.map_some, lookup_insert_eq]
        by_cases hid : id = definition.id
        · simp [Script.ofDefinition, hid]
        · simp [Script.ofDefinition, hid]
    · simp only [hname]
      rfl

theorem definitionOf_loadAll (now : String → UtcReading) (listing : List String)
    (d : ScriptDirectory) (id : String) :
    (d.loadAll text now listing).definitionOf id =
      (load ScriptDefinition.id (d.onDisk text) listing).lookup id := by
  have hloop : ∀ (scripts : HashMap String Script) (definitions : HashMap String ScriptDefinition),
      (∀ id, (scripts.lookup id).map Script.definition = definitions.lookup id) →
      ((listing.foldl (loadEntry text now d.files) scripts).lookup id).map Script.definition =
        (store definitions (listing.filterMap fun name =>
          (d.onDisk text name).map fun v => (v.id, v))).lookup id := by
    induction listing with
    | nil => exact fun scripts definitions h => h id
    | cons name listing ih =>
      intro scripts definitions h
      rw [List.foldl_cons, List.filterMap_cons]
      have hentry := lookup_loadEntry text now d.files scripts name
      cases hfile : d.onDisk text name with
      | none =>
        refine ih _ definitions fun id => ?_
        rw [hentry id, ← onDisk, hfile, ← h id]
      | some definition =>
        refine ih _ (definitions.insert definition.id definition) fun id => ?_
        rw [hentry id, ← onDisk, hfile, lookup_insert_eq, ← h id]
  exact hloop ∅ ∅ fun id => by rw [Finmap.lookup_empty, Finmap.lookup_empty, Option.map_none]

private theorem durable_iff_represents : d.Durable text ↔
    Represents ScriptDefinition.id (d.onDisk text) d.definitionOf := by
  rw [onDisk, ← load_eq_iff_represents]
  constructor
  · intro h order horder id
    rw [← h order horder (fun _ => .epoch) id, definitionOf_loadAll]
    rfl
  · intro h order horder now id
    rw [definitionOf_loadAll]
    exact h order horder id

/-- A directory loaded in some order is durable exactly if it is unambiguous. -/
theorem durable_loadAll_iff {listing : List String} (hl : Enumerates listing d.files)
    (now : String → UtcReading) :
    (d.loadAll text now listing).Durable text ↔ d.Unambiguous text := by
  have hmemory : (d.loadAll text now listing).definitionOf =
      fun id => (load ScriptDefinition.id (d.onDisk text) listing).lookup id :=
    funext fun id => definitionOf_loadAll now listing d id
  rw [durable_iff_represents, hmemory]
  exact represents_load_iff fun name definition hname => mem_of_parsed hl hname

/-- Files other than the one written or deleted hold no other definition of the id, and that
file held no definition of another id that no other file holds. -/
def OnlyFile (text : DefinitionText) (d : ScriptDirectory) (id : String)
    (definition : Option ScriptDefinition) : Prop :=
  (∀ name other, name ≠ scriptFileName id → d.onDisk text name = some other → other.id = id →
      some other = definition) ∧
    Spare ScriptDefinition.id (d.onDisk text) (scriptFileName id) id

/-- The call writes a definition that survives its text under the id of the file name, and
it writes or deletes under the only file name of the id. -/
def KeepsFiles (text : DefinitionText) (d : ScriptDirectory) (op : DirectoryOp) : Prop :=
  match op.change d with
  | .keep => True
  | .put id definition =>
    text.parseJson (text.printJson definition) = some definition ∧ definition.id = id ∧
      d.OnlyFile text id (some definition)
  | .remove id => d.OnlyFile text id none

/-- The text of each definition that the call writes is read back as this definition. -/
def Readable (text : DefinitionText) (d : ScriptDirectory) (op : DirectoryOp) : Prop :=
  ∀ id definition, op.change d = .put id definition →
    text.parseJson (text.printJson definition) = some definition

theorem KeepsFiles.readable {op : DirectoryOp} (h : d.KeepsFiles text op) :
    d.Readable text op := by
  intro id definition hchange
  rw [KeepsFiles, hchange] at h
  exact h.1

/-- A durable directory stays durable under a call exactly if the call keeps the files. -/
theorem Durable.step_iff (h : d.Durable text) {maxScripts : ℕ} {op : DirectoryOp}
    (hok : (op.run text maxScripts d).1 = .ok ()) (hreadable : d.Readable text op) :
    (op.run text maxScripts d).2.Durable text ↔ d.KeepsFiles text op := by
  obtain ⟨hnamed, happlied⟩ := DirectoryOp.run_applied hok
  rw [durable_iff_represents] at h ⊢
  rw [KeepsFiles]
  generalize (op.run text maxScripts d).2 = d' at happlied ⊢
  cases hchange : op.change d with
  | keep =>
    rw [hchange] at happlied
    have hdisk : d'.onDisk text = d.onDisk text := by rw [onDisk, happlied.files, onDisk]
    have hmemory : d'.definitionOf = d.definitionOf := funext happlied.definitionOf
    rw [hdisk, hmemory]
    exact iff_of_true h trivial
  | put id definition =>
    rw [hchange] at happlied hnamed
    have hread := hreadable id definition hchange
    have hdisk : ∀ name, d'.onDisk text name =
        if name = scriptFileName id then some definition else d.onDisk text name := by
      intro name
      rw [onDisk, happlied.files, parsed_insert, definitionIn_scriptFileName text hnamed, hread]
      rfl
    obtain ⟨hfile, hother⟩ := changed_at hdisk
    obtain ⟨hstored, hmemory⟩ := changed_at happlied.definitionOf
    rw [h.put_iff hfile hother hstored hmemory]
    simp only [hread, OnlyFile, Option.some.injEq, true_and]
  | remove id =>
    rw [hchange] at happlied
    have hdisk : ∀ name, d'.onDisk text name =
        if name = scriptFileName id then none else d.onDisk text name := by
      intro name
      rw [onDisk, happlied.files, parsed_erase]
      rfl
    obtain ⟨hfile, hother⟩ := changed_at hdisk
    obtain ⟨hstored, hmemory⟩ := changed_at happlied.definitionOf
    rw [h.remove_iff hfile hother hstored hmemory]
    simp only [OnlyFile, reduceCtorEq, ne_eq, imp_false]

end ScriptDirectory

def successfulCalls (text : DefinitionText) (maxScripts : ℕ) :
    Machine ScriptDirectory DirectoryOp :=
  (directoryMachine text maxScripts).restrict (DirectoryOp.Succeeds text maxScripts)

/-- After load_all, the directory gives back what is in memory as long as no two files
differ on a script and every call keeps the files. A call with a readable definition that
does not keep them ends this. -/
theorem directory_durable (text : DefinitionText) (maxScripts : ℕ) (d : ScriptDirectory)
    (listing : List String) (hl : Enumerates listing d.files) (now : String → UtcReading) :
    ((d.loadAll text now listing).Durable text ↔ d.Unambiguous text) ∧
      (d.Unambiguous text → ∀ ops,
        ((successfulCalls text maxScripts).restrict (ScriptDirectory.KeepsFiles text)).Runs
            (d.loadAll text now listing) ops →
          ((successfulCalls text maxScripts).run (d.loadAll text now listing) ops).Durable text) ∧
      ∀ (s : ScriptDirectory) (op : DirectoryOp), s.Durable text →
        (successfulCalls text maxScripts).allowed s op → s.Readable text op →
          (((successfulCalls text maxScripts).step s op).Durable text ↔ s.KeepsFiles text op) := by
  refine ⟨ScriptDirectory.durable_loadAll_iff hl now, fun hfiles ops hruns => ?_,
    fun s op h hok hreadable => h.step_iff hok.2 hreadable⟩
  have hstart := (ScriptDirectory.durable_loadAll_iff hl now).mpr hfiles
  refine Machine.Runs.invariant (ScriptDirectory.Durable text) ?_ hstart hruns
  intro s op h hok hkeeps
  exact (h.step_iff hok.2 hkeeps.readable).mpr hkeeps

/-! ## A script that was loaded from YAML -/

def pumpDefinition : ScriptDefinition := ⟨"pump", "Pump", "", "1.0", true, .normal, [], [], [], []⟩

def pumpYaml : String := "id: pump
name: Pump
triggers: []
actions: []
"

def pumpText : DefinitionText where
  printJson _ := "{}"
  parseJson content := if content = "{}" then some pumpDefinition else none
  parseYaml content := if content = pumpYaml then some pumpDefinition else none

def pumpDirectory (name content : String) : ScriptDirectory :=
  ⟨⟨∅⟩, (∅ : HashMap String String).insert name content⟩

def storedPump : ScriptDirectory := .ofScript pumpText 100 pumpDefinition

theorem enumerates_pumpDirectory (name content : String) :
    Enumerates [name] (pumpDirectory name content).files :=
  Enumerates.empty.insert (by simp) content

theorem onDisk_pump {d : ScriptDirectory} {name : String} {definition : ScriptDefinition}
    (h : d.onDisk pumpText name = some definition) : definition = pumpDefinition := by
  obtain ⟨content, -, hcontent⟩ := Option.bind_eq_some_iff.mp h
  rw [definitionIn] at hcontent
  split_ifs at hcontent
  rw [ScriptDirectory.parseScriptFile] at hcontent
  split at hcontent
  all_goals
    simp only [pumpText] at hcontent
    split_ifs at hcontent
    exact (Option.some.inj hcontent).symm

/-- Stored as `pump.json`, the script can be deleted for good. -/
theorem directory_durable_pump :
    ((successfulCalls pumpText 100).run
      ((pumpDirectory "pump.json" "{}").loadAll pumpText
        (fun _ => .epoch) ["pump.json"])
      [.delete .done "pump"]).Durable pumpText := by
  refine (directory_durable pumpText 100 (pumpDirectory "pump.json" "{}") ["pump.json"]
    (enumerates_pumpDirectory _ _) _).2.1 (fun name name' definition definition' h h' _ => ?_)
    [.delete .done "pump"] ⟨⟨⟨trivial, rfl⟩, ?_⟩, trivial⟩
  · rw [onDisk_pump h, onDisk_pump h']
  · refine ⟨fun name other hname h _ => ?_, fun definition h hid => ?_⟩
    · obtain ⟨content, hcontent, -⟩ := Option.bind_eq_some_iff.mp h
      have hnone : (pumpDirectory "pump.json" "{}").files.lookup name = none := by
        have hother : name ≠ "pump.json" := hname
        rw [pumpDirectory, lookup_insert_eq, if_neg hother, Finmap.lookup_empty]
      rw [ScriptDirectory.loadAll, hnone] at hcontent
      cases hcontent
    · exact absurd (congrArg ScriptDefinition.id (onDisk_pump h)) hid

/-- A deleted script whose file is `pump.yaml` is back after the next load. -/
theorem yamlScript_undeleted :
    ¬∀ text maxScripts (d : ScriptDirectory) listing, Enumerates listing d.files → ∀ now ops,
      (successfulCalls text maxScripts).Runs (d.loadAll text now listing) ops →
        ((successfulCalls text maxScripts).run (d.loadAll text now listing) ops).Durable
          text := by
  intro h
  have hdurable := h pumpText 100 (pumpDirectory "pump.yaml" pumpYaml) ["pump.yaml"]
    (enumerates_pumpDirectory _ _) (fun _ => .epoch)
    [.delete .done "pump"] ⟨⟨trivial, rfl⟩, trivial⟩
  have hleft : Enumerates ["pump.yaml"]
      ((pumpDirectory "pump.yaml" pumpYaml).files.erase "pump.json") := by
    refine (enumerates_pumpDirectory "pump.yaml" pumpYaml).of_lookup_isSome fun name => ?_
    rw [lookup_erase_eq]
    split_ifs with hname
    · rw [hname]
      rfl
    · rfl
  have hback := hdurable ["pump.yaml"] hleft (fun _ => .epoch) "pump"
  cases hback

end EdgeAgent.Scripting

import EdgeAgent.FileBackedMaps
import EdgeAgent.ScriptStorage
import EdgeAgent.StateMachines

/-!
# The scripts directory

The script storage with the directory it is loaded from and written to. Loading takes every
JSON or YAML file, whatever its name; writing and deleting go by the id of the script. The
text libraries and the answers of the file system enter as parameters.
-/
namespace EdgeAgent.Scripting
open FiniteMaps FileBackedMaps StateMachines

/-- The first second of 1970. -/
def UtcReading.epoch : UtcReading := ⟨0, fun _ => ⟨0, 0, 0, 1, 1, 1970, 3⟩⟩

/-- The JSON and YAML libraries at the type of script definitions. -/
structure DefinitionText where
  printJson : ScriptDefinition → String
  parseJson : String → Option ScriptDefinition
  parseYaml : String → Option ScriptDefinition

def maxScriptIdLength : ℕ := 64

def validateScriptId (id : String) : Except String Unit :=
  if ['.', '.'] <:+: id.toList then .error "Invalid script ID: path traversal detected (..)"
  else if '/' ∈ id.toList ∨ '\\' ∈ id.toList then
    .error "Invalid script ID: path separators not allowed"
  else if id = "" then .error "Invalid script ID: cannot be empty"
  else if id.utf8ByteSize > maxScriptIdLength then
    .error s!"Invalid script ID: exceeds maximum length of {maxScriptIdLength} characters"
  else if id.toList.all (fun c => c.isAlphanum || c == '-' || c == '_') = false then
    .error "Invalid script ID: only alphanumeric, hyphen, and underscore allowed"
  else if id.toList.head? = some '.' then .error "Invalid script ID: cannot start with dot"
  else .ok ()

theorem ne_empty_of_validateScriptId {id : String} (h : validateScriptId id = .ok ()) :
    id ≠ "" := by
  rintro rfl
  revert h
  decide

def scriptFileName (id : String) : String := s!"{id}.json"

/-- `Path::extension` of a file name: a dot at its start begins no extension. -/
def extension (name : String) : Option String :=
  match name.toList.reverse.span (· ≠ '.') with
  | (after, _ :: _ :: _) => some (String.ofList after.reverse)
  | _ => none

theorem extension_scriptFileName {id : String} (h : id ≠ "") :
    extension (scriptFileName id) = some "json" := by
  have hlist : (scriptFileName id).toList.reverse =
      ['n', 'o', 's', 'j', '.'] ++ id.toList.reverse := by
    simp [scriptFileName, String.toList_append, toString]
  have hne : id.toList.reverse ≠ [] := by simpa using h
  obtain ⟨c, cs, hc⟩ := List.exists_cons_of_ne_nil hne
  rw [extension, hlist, hc]
  rfl

/-- The answer to a request to write or remove a file. A failed write may leave any
content, or no file. -/
inductive FileAnswer where
  | done
  | failed (error : String) (left : Option String)

structure ScriptDirectory where
  storage : ScriptStorage
  files : HashMap String String

def Script.update (script : Script) (definition : ScriptDefinition) (now : UtcReading) : Script :=
  { script with
    previousDefinition := some script.definition
    definition := definition
    revision := script.revision + 1
    updatedAt := now
    status := if definition.enabled then .active else .paused
    errorCount := 0 }

/-- Swap the definition with the previous one, if there is one. -/
def Script.rollback (script : Script) (now : UtcReading) : Option Script :=
  script.previousDefinition.map fun prev =>
    { script with
      previousDefinition := some script.definition
      definition := prev
      revision := script.revision + 1
      updatedAt := now }

def Script.setEnabled (script : Script) (enabled : Bool) (now : UtcReading) : Script :=
  { script with
    definition := { script.definition with enabled := enabled }
    status := if enabled then .active else .paused
    updatedAt := now }

/-- The version of a definition that is saved, by what is known of the stored script. -/
def newVersion (now : UtcReading) (definition : ScriptDefinition) : Option Script → Script
  | some old => old.update definition now
  | none => .ofDefinition definition now

@[simp] theorem newVersion_definition (now : UtcReading) (definition : ScriptDefinition)
    (known : Option Script) : (newVersion now definition known).definition = definition := by
  cases known with
  | none => rfl
  | some old => rfl

namespace ScriptDirectory

section Operations
variable (text : DefinitionText) (maxScripts : ℕ)

/-! ## Loading -/

def parseScriptFile (name content : String) : Option ScriptDefinition :=
  match extension name with
  | some "yaml" | some "yml" => text.parseYaml content
  | _ => text.parseJson content

def loadScriptFile (now : UtcReading) (name content : String) : Option Script :=
  (parseScriptFile text name content).map fun definition => .ofDefinition definition now

def loadable (name : String) : Bool :=
  extension name == some "json" || extension name == some "yaml"

/-- One entry of the listing. A file that cannot be parsed is skipped. -/
def loadEntry (now : String → UtcReading) (files : HashMap String String)
    (scripts : HashMap String Script) (name : String) : HashMap String Script :=
  if loadable name then
    match (files.lookup name).bind (loadScriptFile text (now name) name) with
    | some script => scripts.insert script.definition.id script
    | none => scripts
  else scripts

def loadAll (now : String → UtcReading) (listing : List String) (d : ScriptDirectory) :
    ScriptDirectory :=
  { d with storage := ⟨listing.foldl (loadEntry text now d.files) ∅⟩ }

/-! ## Writing and deleting -/

def writeFile (answer : FileAnswer) (name content : String) (files : HashMap String String) :
    Except String Unit × HashMap String String :=
  match answer with
  | .done => (.ok (), files.insert name content)
  | .failed error (some left) => (.error error, files.insert name left)
  | .failed error none => (.error error, files.erase name)

/-- Write a definition to the file of an id, after the map was updated. -/
def writeDefinition (answer : FileAnswer) (id : String) (definition : ScriptDefinition)
    (d : ScriptDirectory) : Except String Bool × ScriptDirectory :=
  match writeFile answer (scriptFileName id) (text.printJson definition) d.files with
  | (.ok (), files) => (.ok true, { d with files := files })
  | (.error error, files) => (.error error, { d with files := files })

def save (answer : FileAnswer) (script : Script) (d : ScriptDirectory) :
    Except String Unit × ScriptDirectory :=
  let id := script.definition.id
  match validateScriptId id with
  | .error error => (.error error, d)
  | .ok () =>
    let count := d.storage.scripts.keys.card
    if (d.storage.get id).isNone ∧ count ≥ maxScripts then
      (.error
        s!"Script storage at capacity ({count}/{maxScripts}). Delete existing scripts first.", d)
    else
      match writeFile answer (scriptFileName id) (text.printJson script.definition) d.files with
      | (.ok (), files) => (.ok (), ⟨⟨d.storage.scripts.insert id script⟩, files⟩)
      | (.error error, files) => (.error error, { d with files := files })

def addScript (answer : FileAnswer) (now : UtcReading) (definition : ScriptDefinition)
    (d : ScriptDirectory) : Except String Unit × ScriptDirectory :=
  let script :=
    match d.storage.get definition.id with
    | some old => old.update definition now
    | none => .ofDefinition definition now
  d.save text maxScripts answer script

/-- The body that `enable`, `disable` and `rollback_script` share: change a stored script
and write its definition. -/
def changeScript (answer : FileAnswer) (id : String) (change : Script → Option Script)
    (d : ScriptDirectory) : Except String Bool × ScriptDirectory :=
  match validateScriptId id with
  | .error error => (.error error, d)
  | .ok () =>
    match (d.storage.get id).bind change with
    | some script =>
      writeDefinition text answer id script.definition
        { d with storage := ⟨d.storage.scripts.insert id script⟩ }
    | none => (.ok false, d)

def enable (answer : FileAnswer) (now : UtcReading) (id : String) :
    ScriptDirectory → Except String Bool × ScriptDirectory :=
  changeScript text answer id fun script => some (script.setEnabled true now)

def disable (answer : FileAnswer) (now : UtcReading) (id : String) :
    ScriptDirectory → Except String Bool × ScriptDirectory :=
  changeScript text answer id fun script => some (script.setEnabled false now)

def rollbackScript (answer : FileAnswer) (now : UtcReading) (id : String) :
    ScriptDirectory → Except String Bool × ScriptDirectory :=
  changeScript text answer id fun script => script.rollback now

/-- The script leaves the map first; its file follows where there is one. -/
def delete (answer : FileAnswer) (id : String) (d : ScriptDirectory) :
    Except String Bool × ScriptDirectory :=
  match validateScriptId id with
  | .error error => (.error error, d)
  | .ok () =>
    if (d.storage.get id).isSome then
      let storage : ScriptStorage := ⟨d.storage.scripts.erase id⟩
      match answer, (d.files.lookup (scriptFileName id)).isSome with
      | .failed error _, true => (.error error, ⟨storage, d.files⟩)
      | _, _ => (.ok true, ⟨storage, d.files.erase (scriptFileName id)⟩)
    else (.ok false, d)

end Operations

def definitionOf (d : ScriptDirectory) (id : String) : Option ScriptDefinition :=
  (d.storage.get id).map Script.definition

end ScriptDirectory

/-! ## What a successful call changes -/

/-- The change that a successful call makes to the definition and the file of one id. -/
inductive DefinitionChange where
  | keep
  | put (id : String) (definition : ScriptDefinition)
  | remove (id : String)

/-- The change of storing an edited script, if there is one. -/
def DefinitionChange.ofEdit (id : String) : Option Script → DefinitionChange
  | some script => .put id script.definition
  | none => .keep

/-- The definitions in memory after the change. -/
def DefinitionChange.definitionAfter (d : ScriptDirectory) (id' : String) :
    DefinitionChange → Option ScriptDefinition
  | .keep => d.definitionOf id'
  | .put id definition => if id' = id then some definition else d.definitionOf id'
  | .remove id => if id' = id then none else d.definitionOf id'

/-- The directory `d'` is `d` after the change. -/
structure DefinitionChange.Applied (text : DefinitionText) (c : DefinitionChange)
    (d d' : ScriptDirectory) : Prop where
  files : d'.files =
    match c with
    | .keep => d.files
    | .put id definition => d.files.insert (scriptFileName id) (text.printJson definition)
    | .remove id => d.files.erase (scriptFileName id)
  definitionOf : ∀ id', d'.definitionOf id' = c.definitionAfter d id'

/-- The changed id can name a file. -/
def DefinitionChange.Named : DefinitionChange → Prop
  | .keep => True
  | .put id _ | .remove id => id ≠ ""

namespace ScriptDirectory
variable {text : DefinitionText} {maxScripts : ℕ} {answer : FileAnswer} {d : ScriptDirectory}

theorem definitionOf_insert (scripts : HashMap String Script) (files : HashMap String String)
    (id : String) (script : Script) (id' : String) :
    definitionOf ⟨⟨scripts.insert id script⟩, files⟩ id' =
      if id' = id then some script.definition else definitionOf ⟨⟨scripts⟩, files⟩ id' := by
  rw [definitionOf, ScriptStorage.get, lookup_insert_eq]
  split_ifs
  · rfl
  · rfl

theorem definitionOf_erase (scripts : HashMap String Script) (files : HashMap String String)
    (id id' : String) :
    definitionOf ⟨⟨scripts.erase id⟩, files⟩ id' =
      if id' = id then none else definitionOf ⟨⟨scripts⟩, files⟩ id' := by
  rw [definitionOf, ScriptStorage.get, lookup_erase_eq]
  split_ifs
  · rfl
  · rfl

/-! Each call does one of a few things. -/

/-- `add_script` saves the new version of the stored script. -/
theorem addScript_eq_save (text : DefinitionText) (maxScripts : ℕ) (answer : FileAnswer)
    (now : UtcReading) (definition : ScriptDefinition) (d : ScriptDirectory) :
    d.addScript text maxScripts answer now definition =
      d.save text maxScripts answer
        (newVersion now definition (d.storage.get definition.id)) := by
  rw [addScript]
  cases d.storage.get definition.id with
  | none => rfl
  | some old => rfl

def leftFile (name : String) (left : Option String) (files : HashMap String String) :
    HashMap String String :=
  match left with
  | some content => files.insert name content
  | none => files.erase name

theorem writeFile_failed (error : String) (left : Option String) (name content : String)
    (files : HashMap String String) :
    writeFile (.failed error left) name content files =
      (.error error, leftFile name left files) := by
  cases left with
  | none => rfl
  | some left => rfl

private theorem lookup_leftFile (name : String) (left : Option String)
    (files : HashMap String String) (name' : String) :
    (leftFile name left files).lookup name' =
      if name' = name then left else files.lookup name' := by
  cases left with
  | none => exact lookup_erase_eq files name name'
  | some content => exact lookup_insert_eq files name name' content

theorem leftFile_eq_iff (name : String) (left : Option String) (files : HashMap String String) :
    leftFile name left files = files ↔ left = files.lookup name := by
  constructor
  · intro h
    rw [← h, lookup_leftFile, if_pos rfl]
  · intro h
    apply Finmap.ext_lookup
    intro name'
    rw [lookup_leftFile]
    split_ifs with hname
    · rw [h, hname]
    · rfl

/-- A script with this id may be stored: the id is valid, and it is known or there is room. -/
structure Accepts (maxScripts : ℕ) (d : ScriptDirectory) (id : String) : Prop where
  valid : validateScriptId id = .ok ()
  room : (d.storage.get id).isSome ∨ d.storage.scripts.keys.card < maxScripts

theorem accepts_iff {id : String} : d.Accepts maxScripts id ↔
    validateScriptId id = .ok () ∧
      ¬((d.storage.get id).isNone ∧ d.storage.scripts.keys.card ≥ maxScripts) := by
  rw [not_and_or, not_le, Option.isNone_iff_eq_none, ← ne_eq, ← Option.isSome_iff_ne_none]
  exact ⟨fun h => ⟨h.valid, h.room⟩, fun h => ⟨h.1, h.2⟩⟩

/-- What `save` does: refuse the script, fail to write it, or store it. -/
inductive SaveCases (text : DefinitionText) (maxScripts : ℕ) (d : ScriptDirectory)
    (answer : FileAnswer) (script : Script) : Prop
  | refused (error : String) (h : ¬d.Accepts maxScripts script.definition.id)
      (hout : d.save text maxScripts answer script = (.error error, d))
  | failed (error : String) (left : Option String)
      (h : d.Accepts maxScripts script.definition.id) (ha : answer = .failed error left)
      (hout : d.save text maxScripts answer script =
        (.error error,
          { d with files := leftFile (scriptFileName script.definition.id) left d.files }))
  | stored (h : d.Accepts maxScripts script.definition.id) (ha : answer = .done)
      (hout : d.save text maxScripts answer script =
        (.ok (), ⟨⟨d.storage.scripts.insert script.definition.id script⟩,
          d.files.insert (scriptFileName script.definition.id)
            (text.printJson script.definition)⟩))

theorem save_cases (text : DefinitionText) (maxScripts : ℕ) (d : ScriptDirectory)
    (answer : FileAnswer) (script : Script) : SaveCases text maxScripts d answer script := by
  rcases hid : validateScriptId script.definition.id with error | valid
  · refine .refused error (fun h => ?_) (by simp only [save, hid])
    rw [accepts_iff, hid] at h
    cases h.1
  · by_cases hfull : (d.storage.get script.definition.id).isNone ∧
        d.storage.scripts.keys.card ≥ maxScripts
    · refine .refused _ (fun h => ?_) (by simp only [save, hid, if_pos hfull]; rfl)
      exact (accepts_iff.mp h).2 hfull
    · have haccepts : d.Accepts maxScripts script.definition.id := accepts_iff.mpr ⟨hid, hfull⟩
      cases answer with
      | done => exact .stored haccepts rfl (by simp only [save, hid, if_neg hfull, writeFile])
      | failed error left =>
        exact .failed error left haccepts rfl
          (by simp only [save, hid, if_neg hfull, writeFile_failed])

/-- What `changeScript` does: refuse the id, find nothing to change, or change the script and
then fail to write it or write it. -/
inductive ChangeCases (text : DefinitionText) (d : ScriptDirectory) (answer : FileAnswer)
    (id : String) (change : Script → Option Script) : Prop
  | refused (error : String) (h : validateScriptId id = .error error)
      (hout : d.changeScript text answer id change = (.error error, d))
  | absent (h : validateScriptId id = .ok ()) (hscript : (d.storage.get id).bind change = none)
      (hout : d.changeScript text answer id change = (.ok false, d))
  | failed (script : Script) (error : String) (left : Option String)
      (h : validateScriptId id = .ok ()) (hscript : (d.storage.get id).bind change = some script)
      (ha : answer = .failed error left)
      (hout : d.changeScript text answer id change =
        (.error error, ⟨⟨d.storage.scripts.insert id script⟩,
          leftFile (scriptFileName id) left d.files⟩))
  | changed (script : Script)
      (h : validateScriptId id = .ok ()) (hscript : (d.storage.get id).bind change = some script)
      (ha : answer = .done)
      (hout : d.changeScript text answer id change =
        (.ok true, ⟨⟨d.storage.scripts.insert id script⟩,
          d.files.insert (scriptFileName id) (text.printJson script.definition)⟩))

theorem changeScript_cases (text : DefinitionText) (d : ScriptDirectory) (answer : FileAnswer)
    (id : String) (change : Script → Option Script) : ChangeCases text d answer id change := by
  rcases hid : validateScriptId id with error | valid
  · exact .refused error hid (by simp only [changeScript, hid])
  · cases hscript : (d.storage.get id).bind change with
    | none => exact .absent hid hscript (by simp only [changeScript, hid, hscript])
    | some script =>
      cases answer with
      | done =>
        exact .changed script hid hscript rfl
          (by simp only [changeScript, hid, hscript, writeDefinition, writeFile])
      | failed error left =>
        exact .failed script error left hid hscript rfl
          (by simp only [changeScript, hid, hscript, writeDefinition, writeFile_failed])

/-- What `delete` does: refuse the id, find no script, or remove it from the map and then fail
to remove its file or remove it. -/
inductive DeleteCases (d : ScriptDirectory) (answer : FileAnswer) (id : String) : Prop
  | refused (error : String) (h : validateScriptId id = .error error)
      (hout : d.delete answer id = (.error error, d))
  | absent (h : validateScriptId id = .ok ()) (hscript : d.storage.get id = none)
      (hout : d.delete answer id = (.ok false, d))
  | failed (error : String) (left : Option String) (h : validateScriptId id = .ok ())
      (hscript : (d.storage.get id).isSome) (ha : answer = .failed error left)
      (hfile : (d.files.lookup (scriptFileName id)).isSome)
      (hout : d.delete answer id = (.error error, ⟨⟨d.storage.scripts.erase id⟩, d.files⟩))
  | removed (h : validateScriptId id = .ok ()) (hscript : (d.storage.get id).isSome)
      (ha : answer = .done ∨ d.files.lookup (scriptFileName id) = none)
      (hout : d.delete answer id =
        (.ok true, ⟨⟨d.storage.scripts.erase id⟩, d.files.erase (scriptFileName id)⟩))

theorem delete_cases (d : ScriptDirectory) (answer : FileAnswer) (id : String) :
    DeleteCases d answer id := by
  rcases hid : validateScriptId id with error | valid
  · exact .refused error hid (by simp only [delete, hid])
  · cases hscript : d.storage.get id with
    | none =>
      exact .absent hid hscript (by simp [delete, hid, hscript])
    | some script =>
      have hsome : (d.storage.get id).isSome := by rw [hscript, Option.isSome_some]
      cases hfile : d.files.lookup (scriptFileName id) with
      | none => exact .removed hid hsome (.inr hfile) (by simp [delete, hid, hscript, hfile])
      | some content =>
        have hexists : (d.files.lookup (scriptFileName id)).isSome := by
          rw [hfile, Option.isSome_some]
        cases answer with
        | done => exact .removed hid hsome (.inl rfl) (by simp [delete, hid, hscript])
        | failed error left =>
          exact .failed error left hid hsome rfl hexists (by simp [delete, hid, hscript, hfile])

/-! What survives the changes that a call may make survives the call. -/

theorem save_preserves {P : ScriptDirectory → Prop} {script : Script}
    (hkept : ∀ files, P ⟨d.storage, files⟩)
    (hstored : d.Accepts maxScripts script.definition.id →
      ∀ files, P ⟨⟨d.storage.scripts.insert script.definition.id script⟩, files⟩) :
    P (d.save text maxScripts answer script).2 := by
  cases d.save_cases text maxScripts answer script with
  | refused error _ hout =>
    rw [hout]
    exact hkept d.files
  | failed error left _ _ hout =>
    rw [hout]
    exact hkept _
  | stored haccepts _ hout =>
    rw [hout]
    exact hstored haccepts _

theorem changeScript_preserves {P : ScriptDirectory → Prop} {id : String}
    {change : Script → Option Script} (hd : P d)
    (hchanged : ∀ old script, validateScriptId id = .ok () → d.storage.get id = some old →
      change old = some script → ∀ files, P ⟨⟨d.storage.scripts.insert id script⟩, files⟩) :
    P (d.changeScript text answer id change).2 := by
  cases d.changeScript_cases text answer id change with
  | refused error _ hout =>
    rw [hout]
    exact hd
  | absent _ _ hout =>
    rw [hout]
    exact hd
  | failed script error left hid hscript _ hout =>
    obtain ⟨old, hold, hchange⟩ := Option.bind_eq_some_iff.mp hscript
    rw [hout]
    exact hchanged old script hid hold hchange _
  | changed script hid hscript _ hout =>
    obtain ⟨old, hold, hchange⟩ := Option.bind_eq_some_iff.mp hscript
    rw [hout]
    exact hchanged old script hid hold hchange _

theorem delete_preserves {P : ScriptDirectory → Prop} {id : String} (hd : P d)
    (hremoved : (d.storage.get id).isSome →
      ∀ files, P ⟨⟨d.storage.scripts.erase id⟩, files⟩) :
    P (d.delete answer id).2 := by
  cases d.delete_cases answer id with
  | refused error _ hout =>
    rw [hout]
    exact hd
  | absent _ _ hout =>
    rw [hout]
    exact hd
  | failed error left _ hscript _ _ hout =>
    rw [hout]
    exact hremoved hscript _
  | removed _ hscript _ hout =>
    rw [hout]
    exact hremoved hscript _

/-- Where the change of a stored script decides whether a property is kept, the call keeps it
exactly if the changed script is right. -/
theorem changeScript_keeps_iff {P : ScriptDirectory → Prop} {Q : Script → Prop} {id : String}
    {change : Script → Option Script} (hd : P d)
    (hchanged : ∀ old script, d.storage.get id = some old → ∀ files,
      (P ⟨⟨d.storage.scripts.insert id script⟩, files⟩ ↔ Q script)) :
    P (d.changeScript text answer id change).2 ↔
      (validateScriptId id = .ok () → ∀ old script, d.storage.get id = some old →
        change old = some script → Q script) := by
  constructor
  · intro hafter hvalid old script hold hchange
    have hscript : (d.storage.get id).bind change = some script := by
      rw [hold, Option.bind_some, hchange]
    cases d.changeScript_cases text answer id change with
    | refused error hid _ =>
      rw [hvalid] at hid
      cases hid
    | absent _ hnone _ =>
      rw [hscript] at hnone
      cases hnone
    | failed script' error left _ hscript' _ hout =>
      rw [hscript] at hscript'
      obtain rfl := Option.some.inj hscript'
      rw [hout] at hafter
      exact (hchanged old script hold _).mp hafter
    | changed script' _ hscript' _ hout =>
      rw [hscript] at hscript'
      obtain rfl := Option.some.inj hscript'
      rw [hout] at hafter
      exact (hchanged old script hold _).mp hafter
  · intro hall
    apply changeScript_preserves hd
    intro old script hvalid hold hchange files
    exact (hchanged old script hold files).mpr (hall hvalid old script hold hchange)

private theorem save_applied {script : Script}
    (h : (d.save text maxScripts answer script).1 = .ok ()) :
    validateScriptId script.definition.id = .ok () ∧
      (DefinitionChange.put script.definition.id script.definition).Applied text d
        (d.save text maxScripts answer script).2 := by
  cases d.save_cases text maxScripts answer script with
  | refused error _ hout =>
    rw [hout] at h
    cases h
  | failed error left _ _ hout =>
    rw [hout] at h
    cases h
  | stored haccepts _ hout =>
    rw [hout]
    exact ⟨haccepts.valid, rfl, definitionOf_insert _ _ _ _⟩

theorem changeScript_applied {id : String} {change : Script → Option Script}
    (h : ∃ changed, (d.changeScript text answer id change).1 = .ok changed) :
    validateScriptId id = .ok () ∧
      (DefinitionChange.ofEdit id ((d.storage.get id).bind change)).Applied text d
        (d.changeScript text answer id change).2 := by
  obtain ⟨changed, h⟩ := h
  cases d.changeScript_cases text answer id change with
  | refused error _ hout =>
    rw [hout] at h
    cases h
  | absent hid hscript hout =>
    rw [hout, hscript]
    exact ⟨hid, rfl, fun _ => rfl⟩
  | failed script error left _ _ _ hout =>
    rw [hout] at h
    cases h
  | changed script hid hscript _ hout =>
    rw [hout, hscript]
    exact ⟨hid, rfl, definitionOf_insert _ _ _ _⟩

private theorem delete_applied {id : String} (h : ∃ deleted, (d.delete answer id).1 = .ok deleted) :
    validateScriptId id = .ok () ∧
      (if (d.storage.get id).isSome then DefinitionChange.remove id else .keep).Applied text d
        (d.delete answer id).2 := by
  obtain ⟨deleted, h⟩ := h
  cases d.delete_cases answer id with
  | refused error _ hout =>
    rw [hout] at h
    cases h
  | absent hid hscript hout =>
    rw [hout, hscript]
    exact ⟨hid, rfl, fun _ => rfl⟩
  | failed error left _ _ _ _ hout =>
    rw [hout] at h
    cases h
  | removed hid hscript _ hout =>
    rw [hout, if_pos hscript]
    exact ⟨hid, rfl, definitionOf_erase _ _ _⟩

end ScriptDirectory

/-! ## Runs of calls -/

inductive DirectoryOp where
  | save (answer : FileAnswer) (script : Script)
  | addScript (answer : FileAnswer) (now : UtcReading) (definition : ScriptDefinition)
  | enable (answer : FileAnswer) (now : UtcReading) (id : String)
  | disable (answer : FileAnswer) (now : UtcReading) (id : String)
  | rollbackScript (answer : FileAnswer) (now : UtcReading) (id : String)
  | delete (answer : FileAnswer) (id : String)
  | setRunning (id : String)
  | updateResult (id : String) (now : UtcReading) (success : Bool) (result : String)

namespace DirectoryOp

def called {S : Type} (out : Except String Bool × S) : Except String Unit × S :=
  (out.1.map fun _ => (), out.2)

/-- The outcome of a call and the directory after it. -/
def run (text : DefinitionText) (maxScripts : ℕ) (d : ScriptDirectory) :
    DirectoryOp → Except String Unit × ScriptDirectory
  | .save answer script => d.save text maxScripts answer script
  | .addScript answer now definition => d.addScript text maxScripts answer now definition
  | .enable answer now id => called (d.enable text answer now id)
  | .disable answer now id => called (d.disable text answer now id)
  | .rollbackScript answer now id => called (d.rollbackScript text answer now id)
  | .delete answer id => called (d.delete answer id)
  | .setRunning id => (.ok (), { d with storage := (d.storage.setRunning id).2 })
  | .updateResult id now success result =>
    (.ok (), { d with storage := d.storage.updateResult id now success result })

/-- What the call changes if it succeeds. -/
def change (d : ScriptDirectory) : DirectoryOp → DefinitionChange
  | .save _ script => .put script.definition.id script.definition
  | .addScript _ _ definition => .put definition.id definition
  | .enable _ now id => .ofEdit id ((d.storage.get id).map fun s => s.setEnabled true now)
  | .disable _ now id => .ofEdit id ((d.storage.get id).map fun s => s.setEnabled false now)
  | .rollbackScript _ now id => .ofEdit id ((d.storage.get id).bind fun s => s.rollback now)
  | .delete _ id => if (d.storage.get id).isSome then .remove id else .keep
  | .setRunning _ | .updateResult .. => .keep

theorem called_ok {S : Type} {out : Except String Bool × S} (h : (called out).1 = .ok ()) :
    ∃ found, out.1 = .ok found := by
  rcases out with ⟨result, s⟩
  cases result with
  | error error => cases h
  | ok found => exact ⟨found, rfl⟩

theorem named_ofEdit {id : String} (h : id ≠ "") (script : Option Script) :
    (DefinitionChange.ofEdit id script).Named := by
  cases script with
  | none => trivial
  | some script => exact h

theorem keep_applied (text : DefinitionText) (d : ScriptDirectory) (storage : ScriptStorage)
    (h : ∀ id, (storage.get id).map Script.definition = d.definitionOf id) :
    DefinitionChange.keep.Applied text d { d with storage := storage } := ⟨rfl, h⟩

/-- A successful call makes its change. -/
theorem run_applied {text : DefinitionText} {maxScripts : ℕ} {d : ScriptDirectory}
    {op : DirectoryOp} (h : (op.run text maxScripts d).1 = .ok ()) :
    (op.change d).Named ∧ (op.change d).Applied text d (op.run text maxScripts d).2 := by
  cases op with
  | save answer script =>
    obtain ⟨hid, happlied⟩ := ScriptDirectory.save_applied h
    exact ⟨ne_empty_of_validateScriptId hid, happlied⟩
  | addScript answer now definition =>
    rw [run, ScriptDirectory.addScript_eq_save] at h ⊢
    obtain ⟨hid, happlied⟩ := ScriptDirectory.save_applied h
    rw [newVersion_definition] at hid happlied
    exact ⟨ne_empty_of_validateScriptId hid, happlied⟩
  | enable answer now id =>
    obtain ⟨hid, happlied⟩ := ScriptDirectory.changeScript_applied (called_ok h)
    rw [change, Option.map_eq_bind]
    exact ⟨named_ofEdit (ne_empty_of_validateScriptId hid) _, happlied⟩
  | disable answer now id =>
    obtain ⟨hid, happlied⟩ := ScriptDirectory.changeScript_applied (called_ok h)
    rw [change, Option.map_eq_bind]
    exact ⟨named_ofEdit (ne_empty_of_validateScriptId hid) _, happlied⟩
  | rollbackScript answer now id =>
    obtain ⟨hid, happlied⟩ := ScriptDirectory.changeScript_applied (called_ok h)
    exact ⟨named_ofEdit (ne_empty_of_validateScriptId hid) _, happlied⟩
  | delete answer id =>
    obtain ⟨hid, happlied⟩ := ScriptDirectory.delete_applied (called_ok h)
    refine ⟨?_, happlied⟩
    rw [change]
    split_ifs
    · exact ne_empty_of_validateScriptId hid
    · trivial
  | setRunning id =>
    refine ⟨trivial, keep_applied text d _ fun id' => ?_⟩
    rw [ScriptStorage.get_setRunning, ScriptDirectory.definitionOf]
    split_ifs with hid
    · rw [hid, Option.map_map]
      rfl
    · rfl
  | updateResult id now success result =>
    refine ⟨trivial, keep_applied text d _ fun id' => ?_⟩
    rw [ScriptStorage.get_updateResult, ScriptDirectory.definitionOf]
    split_ifs with hid
    · rw [hid, Option.map_map]
      exact congrArg (fun f => Option.map f (d.storage.get id))
        (funext fun s => s.updateResult_definition now success result)
    · rfl

end DirectoryOp

theorem ScriptDirectory.addScript_definitionOf {text : DefinitionText} {maxScripts : ℕ}
    {answer : FileAnswer} {now : UtcReading} {definition : ScriptDefinition} {d : ScriptDirectory}
    (h : (d.addScript text maxScripts answer now definition).1 = .ok ()) (id : String) :
    (d.addScript text maxScripts answer now definition).2.definitionOf id =
      if id = definition.id then some definition else d.definitionOf id := by
  have hrun : ((DirectoryOp.addScript answer now definition).run text maxScripts d).1 = .ok () := h
  exact (DirectoryOp.run_applied hrun).2.definitionOf id

namespace ScriptDirectory
variable (text : DefinitionText) (maxScripts : ℕ) (answer : FileAnswer) (d : ScriptDirectory)

def Remembers (c : DefinitionChange) (d d' : ScriptDirectory) : Prop :=
  (∀ id, d'.definitionOf id = d.definitionOf id) ∨
    ∀ id, d'.definitionOf id = c.definitionAfter d id

/-- A definition that is not saved leaves the storage as it is. -/
theorem save_failed {script : Script} (h : (d.save text maxScripts answer script).1 ≠ .ok ()) :
    (d.save text maxScripts answer script).2.storage = d.storage := by
  cases d.save_cases text maxScripts answer script with
  | refused error _ hout => rw [hout]
  | failed error left _ _ hout => rw [hout]
  | stored _ _ hout =>
    rw [hout] at h
    exact absurd rfl h

theorem changeScript_remembers (id : String) (change : Script → Option Script) :
    Remembers (.ofEdit id ((d.storage.get id).bind change)) d
      (d.changeScript text answer id change).2 := by
  apply changeScript_preserves
  · exact Or.inl fun _ => rfl
  · intro old script _ hold hchange files
    rw [hold, Option.bind_some, hchange]
    exact Or.inr (definitionOf_insert _ _ _ _)

theorem delete_remembers (id : String) :
    Remembers (if (d.storage.get id).isSome then .remove id else .keep) d
      (d.delete answer id).2 := by
  apply delete_preserves
  · exact Or.inl fun _ => rfl
  · intro hstored files
    rw [if_pos hstored]
    exact Or.inr (definitionOf_erase _ _ _)

end ScriptDirectory

def DirectoryOp.Succeeds (text : DefinitionText) (maxScripts : ℕ) (d : ScriptDirectory)
    (op : DirectoryOp) : Prop := (op.run text maxScripts d).1 = .ok ()

/-- The directory since it was loaded in some order. -/
def directoryMachine (text : DefinitionText) (maxScripts : ℕ) :
    Machine ScriptDirectory DirectoryOp where
  init d := ∃ listing, Enumerates listing d.files ∧ ∃ now storage,
    d = ScriptDirectory.loadAll text now listing ⟨storage, d.files⟩
  allowed _ _ := True
  step d op := (op.run text maxScripts d).2

/-! ## The keys of the storage -/

/-- The definition to go back to, if any, is of the same script. -/
def Script.Versioned (script : Script) : Prop :=
  ∀ prev, script.previousDefinition = some prev → prev.id = script.definition.id

/-- Every script is stored under the id of its definition. -/
def ScriptStorage.Keyed (storage : ScriptStorage) : Prop :=
  ∀ id script, storage.get id = some script → script.definition.id = id ∧ script.Versioned

namespace ScriptStorage

theorem Keyed.insert {storage : ScriptStorage} (h : storage.Keyed) {script : Script}
    (hv : script.Versioned) : Keyed ⟨storage.scripts.insert script.definition.id script⟩ := by
  intro id script' hget
  rw [get, lookup_insert_eq] at hget
  split_ifs at hget with hid
  · obtain rfl := Option.some.inj hget
    exact ⟨hid.symm, hv⟩
  · exact h id script' hget

theorem Keyed.erase {storage : ScriptStorage} (h : storage.Keyed) (id : String) :
    Keyed ⟨storage.scripts.erase id⟩ := by
  intro id' script hget
  rw [get, lookup_erase_eq] at hget
  split_ifs at hget
  exact h id' script hget

/-- An update in place that keeps both definitions keeps the keys. -/
theorem Keyed.modify {storage : ScriptStorage} (h : storage.Keyed) (id : String)
    {f : Script → Script} (hdefinition : ∀ s, (f s).definition = s.definition)
    (hprev : ∀ s, (f s).previousDefinition = s.previousDefinition) :
    Keyed ⟨FiniteMaps.modify storage.scripts id f⟩ := by
  intro id' script hget
  rw [get, lookup_modify] at hget
  split_ifs at hget with hid
  · obtain ⟨old, hold, rfl⟩ := Option.map_eq_some_iff.mp hget
    obtain ⟨hkey, hv⟩ := h id old hold
    rw [hdefinition, hid]
    refine ⟨hkey, fun prev hp => ?_⟩
    rw [hprev] at hp
    rw [hdefinition]
    exact hv prev hp
  · exact h id' script hget

end ScriptStorage

namespace ScriptDirectory
variable {text : DefinitionText} {maxScripts : ℕ} {answer : FileAnswer} {d : ScriptDirectory}

theorem loadAll_new {now : String → UtcReading} {listing : List String} {id : String}
    {script : Script} (h : (d.loadAll text now listing).storage.get id = some script) :
    ∃ definition reading, script = .ofDefinition definition reading ∧ definition.id = id := by
  have hloop : ∀ scripts : HashMap String Script,
      (∀ id script, scripts.lookup id = some script →
        ∃ definition reading, script = .ofDefinition definition reading ∧ definition.id = id) →
      ∀ id script,
        (listing.foldl (loadEntry text now d.files) scripts).lookup id = some script →
          ∃ definition reading, script = .ofDefinition definition reading ∧ definition.id = id := by
    clear h
    induction listing with
    | nil => exact fun scripts hscripts => hscripts
    | cons name listing ih =>
      intro scripts hscripts
      refine ih _ ?_
      rw [loadEntry]
      split_ifs
      · cases hload : (d.files.lookup name).bind (loadScriptFile text (now name) name) with
        | none => exact hscripts
        | some loaded =>
          obtain ⟨content, -, hparse⟩ := Option.bind_eq_some_iff.mp hload
          obtain ⟨definition, -, rfl⟩ := Option.map_eq_some_iff.mp hparse
          intro id' script' hget
          rw [lookup_insert_eq] at hget
          split_ifs at hget with hid
          · obtain rfl := Option.some.inj hget
            exact ⟨definition, now name, rfl, hid.symm⟩
          · exact hscripts id' script' hget
      · exact hscripts
  refine hloop ∅ (fun id script hget => ?_) id script h
  rw [Finmap.lookup_empty] at hget
  cases hget

theorem keyed_loadAll (now : String → UtcReading) (listing : List String) (d : ScriptDirectory) :
    (d.loadAll text now listing).storage.Keyed := by
  intro id script hget
  obtain ⟨definition, reading, rfl, rfl⟩ := loadAll_new hget
  refine ⟨rfl, fun prev hprev => ?_⟩
  cases hprev

private theorem save_keyed (h : d.storage.Keyed) {script : Script} (hv : script.Versioned) :
    (d.save text maxScripts answer script).2.storage.Keyed := by
  apply save_preserves (P := fun d => d.storage.Keyed)
  · exact fun _ => h
  · exact fun _ _ => h.insert hv

theorem changeScript_keyed (h : d.storage.Keyed) {id : String} {change : Script → Option Script}
    (hchange : ∀ old script, d.storage.get id = some old → change old = some script →
      script.definition.id = id ∧ script.Versioned) :
    (d.changeScript text answer id change).2.storage.Keyed := by
  apply changeScript_preserves (P := fun d => d.storage.Keyed) h
  intro old script _ hold hnew _
  obtain ⟨rfl, hv⟩ := hchange old script hold hnew
  exact h.insert hv

private theorem delete_keyed (h : d.storage.Keyed) (id : String) :
    (d.delete answer id).2.storage.Keyed := by
  apply delete_preserves (P := fun d => d.storage.Keyed) h
  exact fun _ _ => h.erase id

end ScriptDirectory

/-- The calls of the program: what it saves is a version of the stored script. -/
def DirectoryOp.SavesVersion (_ : ScriptDirectory) : DirectoryOp → Prop
  | .save _ script => script.Versioned
  | _ => True

theorem DirectoryOp.run_keyed {text : DefinitionText} {maxScripts : ℕ} {d : ScriptDirectory}
    (h : d.storage.Keyed) {op : DirectoryOp} (hv : op.SavesVersion d) :
    (op.run text maxScripts d).2.storage.Keyed := by
  have hset : ∀ id enabled now, ∀ old script : Script, d.storage.get id = some old →
      some (old.setEnabled enabled now) = some script →
      script.definition.id = id ∧ script.Versioned := by
    rintro id enabled now old _ hold ⟨⟩
    exact h id old hold
  cases op with
  | save answer script => exact ScriptDirectory.save_keyed h hv
  | addScript answer now definition =>
    rw [run, ScriptDirectory.addScript_eq_save]
    refine ScriptDirectory.save_keyed h ?_
    cases hold : d.storage.get definition.id with
    | none => exact fun prev hprev => nomatch hprev
    | some old =>
      intro prev hprev
      obtain rfl := Option.some.inj hprev
      exact (h _ old hold).1
  | enable answer now id => exact ScriptDirectory.changeScript_keyed h (hset id true now)
  | disable answer now id => exact ScriptDirectory.changeScript_keyed h (hset id false now)
  | rollbackScript answer now id =>
    refine ScriptDirectory.changeScript_keyed h fun old script hold hroll => ?_
    obtain ⟨prev, hprev, rfl⟩ := Option.map_eq_some_iff.mp hroll
    obtain ⟨hid, hold⟩ := h id old hold
    have hprevId := hold prev hprev
    refine ⟨hprevId.trans hid, fun prev' hprev' => ?_⟩
    obtain rfl := Option.some.inj hprev'
    exact hprevId.symm
  | delete answer id => exact ScriptDirectory.delete_keyed h id
  | setRunning id => exact h.modify id (fun _ => rfl) fun _ => rfl
  | updateResult id now success result =>
    refine h.modify id (fun s => s.updateResult_definition now success result) fun s => ?_
    cases success <;> rfl

/-- In every reachable directory, the scripts are stored under their ids. -/
theorem keyed_of_reachable {text : DefinitionText} {maxScripts : ℕ} {d : ScriptDirectory}
    (h : ((directoryMachine text maxScripts).restrict DirectoryOp.SavesVersion).Reachable d) :
    d.storage.Keyed := by
  refine Machine.Reachable.invariant (fun d => d.storage.Keyed) ?_ ?_ h
  · rintro d ⟨listing, -, now, storage, hd⟩
    rw [hd]
    exact ScriptDirectory.keyed_loadAll now listing _
  · rintro d op hd ⟨-, hv⟩
    exact DirectoryOp.run_keyed hd hv

def ScriptDirectory.ofScript (text : DefinitionText) (maxScripts : ℕ)
    (definition : ScriptDefinition) : ScriptDirectory :=
  ((DirectoryOp.addScript .done .epoch definition).run text maxScripts
    (.loadAll text (fun _ => .epoch) [] ⟨⟨∅⟩, ∅⟩)).2

theorem ScriptDirectory.reachable_ofScript (text : DefinitionText) (maxScripts : ℕ)
    (definition : ScriptDefinition) :
    ((directoryMachine text maxScripts).restrict DirectoryOp.SavesVersion).Reachable
      (.ofScript text maxScripts definition) := by
  have hinit : ((directoryMachine text maxScripts).restrict DirectoryOp.SavesVersion).init
      (.loadAll text (fun _ => .epoch) [] ⟨⟨∅⟩, ∅⟩) := ⟨[], Enumerates.empty, _, ⟨∅⟩, rfl⟩
  have hversion : (DirectoryOp.addScript .done .epoch definition).SavesVersion
      (.loadAll text (fun _ => .epoch) [] ⟨⟨∅⟩, ∅⟩) := trivial
  exact .step (.init hinit) ⟨trivial, hversion⟩

def ScriptStorage.Stored (storage : ScriptStorage) : Prop :=
  ∃ (text : DefinitionText) (maxScripts : ℕ) (d : ScriptDirectory),
    ((directoryMachine text maxScripts).restrict DirectoryOp.SavesVersion).Reachable d ∧
      d.storage = storage

theorem ScriptStorage.Stored.keyed {storage : ScriptStorage} (h : storage.Stored) :
    storage.Keyed := by
  obtain ⟨text, maxScripts, d, hd, rfl⟩ := h
  exact keyed_of_reachable hd

end EdgeAgent.Scripting

import EdgeAgent.LexicalPaths
import EdgeAgent.ScriptManagement

/-!
# The paths that script ids reach

Every call that writes or removes a file checks the id first and joins `<id>.json` to the
scripts directory. An id that passes is a plain name, so that no path leaves the directory.
-/
namespace EdgeAgent.Scripting
open FiniteMaps StateMachines LexicalPaths

/-! ## The accepted ids -/

def IdChar (c : Char) : Prop := c.isAlphanum ∨ c = '-' ∨ c = '_'

/-- The accepted ids: up to 64 bytes of letters, digits, hyphens and underscores, at least
one. -/
theorem validateScriptId_ok_iff (id : String) :
    validateScriptId id = .ok () ↔
      id ≠ "" ∧ id.utf8ByteSize ≤ maxScriptIdLength ∧ ∀ c ∈ id.toList, IdChar c := by
  have hchars : (id.toList.all fun c => c.isAlphanum || c == '-' || c == '_') = true ↔
      ∀ c ∈ id.toList, IdChar c := by
    simp [IdChar, or_assoc]
  rw [← hchars, validateScriptId]
  constructor
  · intro h
    split_ifs at h with hdots hslash hempty hlong hall hhidden
    exact ⟨hempty, not_lt.mp hlong, Bool.of_not_eq_false hall⟩
  · intro h
    obtain ⟨hempty, hlong, hall⟩ := h
    have hother : ∀ c ∈ id.toList, IdChar c := hchars.mp hall
    have hdot : '.' ∉ id.toList := by
      intro hmem
      have hchar := hother '.' hmem
      revert hchar
      rw [IdChar]
      decide
    have hslash : ¬('/' ∈ id.toList ∨ '\\' ∈ id.toList) := by
      intro hmem
      rcases hmem with hmem | hmem
      · have hchar := hother '/' hmem
        revert hchar
        rw [IdChar]
        decide
      · have hchar := hother '\\' hmem
        revert hchar
        rw [IdChar]
        decide
    have hdots : ¬['.', '.'] <:+: id.toList := by
      intro hpair
      exact hdot (List.IsInfix.subset hpair List.mem_cons_self)
    have hhidden : id.toList.head? ≠ some '.' := by
      intro hhead
      exact hdot (List.mem_of_head? hhead)
    rw [if_neg hdots, if_neg hslash, if_neg hempty, if_neg (not_lt.mpr hlong), hall, if_neg,
      if_neg hhidden]
    exact Bool.noConfusion

theorem toList_scriptFileName (id : String) :
    (scriptFileName id).toList = id.toList ++ ['.', 'j', 's', 'o', 'n'] := by
  simp [scriptFileName, String.toList_append, toString]

theorem scriptFileName_injective : Function.Injective scriptFileName := by
  intro id id' h
  have hlist := congrArg String.toList h
  rw [toList_scriptFileName, toList_scriptFileName] at hlist
  exact String.toList_inj.mp (List.append_cancel_right hlist)

private theorem plainName_scriptFileName {id : String} (h : validateScriptId id = .ok ()) :
    PlainName (scriptFileName id).toList := by
  obtain ⟨hempty, -, hchars⟩ := (validateScriptId_ok_iff id).mp h
  rw [toList_scriptFileName]
  refine ⟨by simp, fun hmem => ?_, fun hdot => ?_, fun hdots => ?_⟩
  · rcases List.mem_append.mp hmem with hslash | hslash
    · have hchar := hchars '/' hslash
      revert hchar
      rw [IdChar]
      decide
    · revert hslash
      decide
  · have hlength := congrArg List.length hdot
    simp at hlength
  · have hlength := congrArg List.length hdots
    simp at hlength

/-! ## The requests of a call -/

inductive FileRequest where
  | write (path : List Char) (content : String)
  | remove (path : List Char)

def FileRequest.path : FileRequest → List Char
  | .write path _ | .remove path => path

/-- The files of the scripts directory after a request, by file name. -/
def FileRequest.perform (answer : FileAnswer) (files : HashMap String String)
    (request : FileRequest) : HashMap String String :=
  match fileName request.path with
  | none => files
  | some name =>
    match request with
    | .write _ content =>
      (ScriptDirectory.writeFile answer (String.ofList name) content files).2
    | .remove _ =>
      match answer with
      | .done => files.erase (String.ofList name)
      | .failed .. => files

section Requests
variable (scriptsDir : String) (text : DefinitionText) (maxScripts : ℕ) (d : ScriptDirectory)

def scriptPath (id : String) : List Char := join scriptsDir.toList (scriptFileName id).toList

def saveRequests (definition : ScriptDefinition) : List FileRequest :=
  match validateScriptId definition.id with
  | .error _ => []
  | .ok () =>
    if (d.storage.get definition.id).isNone ∧ d.storage.scripts.keys.card ≥ maxScripts then []
    else [.write (scriptPath scriptsDir definition.id) (text.printJson definition)]

def changeRequests (id : String) (change : Script → Option Script) : List FileRequest :=
  match validateScriptId id with
  | .error _ => []
  | .ok () =>
    match (d.storage.get id).bind change with
    | some script => [.write (scriptPath scriptsDir id) (text.printJson script.definition)]
    | none => []

def deleteRequests (id : String) : List FileRequest :=
  match validateScriptId id with
  | .error _ => []
  | .ok () =>
    if (d.storage.get id).isSome ∧ (d.files.lookup (scriptFileName id)).isSome then
      [.remove (scriptPath scriptsDir id)]
    else []

namespace DirectoryOp

def requests : DirectoryOp → List FileRequest
  | .save _ script => saveRequests scriptsDir text maxScripts d script.definition
  | .addScript _ _ definition => saveRequests scriptsDir text maxScripts d definition
  | .enable _ now id =>
    changeRequests scriptsDir text d id fun script => some (script.setEnabled true now)
  | .disable _ now id =>
    changeRequests scriptsDir text d id fun script => some (script.setEnabled false now)
  | .rollbackScript _ now id =>
    changeRequests scriptsDir text d id fun script => script.rollback now
  | .delete _ id => deleteRequests scriptsDir d id
  | .setRunning _ | .updateResult .. => []

def scriptId : DirectoryOp → String
  | .save _ script => script.definition.id
  | .addScript _ _ definition => definition.id
  | .enable _ _ id | .disable _ _ id | .rollbackScript _ _ id | .delete _ id | .setRunning id
  | .updateResult id .. => id

/-- The answer of the file system to the request of the call, where it makes one. -/
def answer : DirectoryOp → FileAnswer
  | .save answer _ | .addScript answer .. | .enable answer .. | .disable answer ..
  | .rollbackScript answer .. | .delete answer _ => answer
  | .setRunning _ | .updateResult .. => .done

end DirectoryOp

/-- The requests of a run, each with its call. Loading reads files only. -/
def requestsOfRun (d : ScriptDirectory) : List StorageOp → List (DirectoryOp × FileRequest)
  | [] => []
  | .loadAll now listing files :: ops =>
    requestsOfRun (StorageOp.run text maxScripts d (.loadAll now listing files)) ops
  | .call op :: ops =>
    (op.requests scriptsDir text maxScripts d).map (fun request => (op, request)) ++
      requestsOfRun (StorageOp.run text maxScripts d (.call op)) ops

end Requests

/-! ## The requests are those of the model -/

section Performed
variable {scriptsDir : String} {text : DefinitionText} {maxScripts : ℕ} {d : ScriptDirectory}

private theorem fileName_scriptPath {id : String} (h : validateScriptId id = .ok ()) :
    fileName (scriptPath scriptsDir id) = some (scriptFileName id).toList :=
  (directChild_join scriptsDir.toList (plainName_scriptFileName h)).fileName_eq

theorem perform_write {id : String} (h : validateScriptId id = .ok ()) (answer : FileAnswer)
    (files : HashMap String String) (content : String) :
    FileRequest.perform answer files (.write (scriptPath scriptsDir id) content) =
      (ScriptDirectory.writeFile answer (scriptFileName id) content files).2 := by
  rw [FileRequest.perform, FileRequest.path, fileName_scriptPath h]
  simp only [String.ofList_toList]

theorem saveRequests_of_accepts {definition : ScriptDefinition}
    (h : d.Accepts maxScripts definition.id) :
    saveRequests scriptsDir text maxScripts d definition =
      [.write (scriptPath scriptsDir definition.id) (text.printJson definition)] := by
  obtain ⟨hvalid, hroom⟩ := ScriptDirectory.accepts_iff.mp h
  rw [saveRequests, hvalid]
  exact if_neg hroom

private theorem saveRequests_of_not_accepts {definition : ScriptDefinition}
    (h : ¬d.Accepts maxScripts definition.id) :
    saveRequests scriptsDir text maxScripts d definition = [] := by
  rw [saveRequests]
  rcases hid : validateScriptId definition.id with error | valid
  · rfl
  · rw [ScriptDirectory.accepts_iff, hid] at h
    exact if_pos (not_not.mp fun hroom => h ⟨rfl, hroom⟩)

private theorem files_save (answer : FileAnswer) (script : Script) :
    (d.save text maxScripts answer script).2.files =
      (saveRequests scriptsDir text maxScripts d script.definition).foldl
        (FileRequest.perform answer) d.files := by
  cases d.save_cases text maxScripts answer script with
  | refused error hrefused hout =>
    rw [hout, saveRequests_of_not_accepts hrefused]
    rfl
  | failed error left haccepts ha hout =>
    rw [hout, saveRequests_of_accepts haccepts, List.foldl_cons, perform_write haccepts.valid, ha,
      ScriptDirectory.writeFile_failed]
    rfl
  | stored haccepts ha hout =>
    rw [hout, saveRequests_of_accepts haccepts, List.foldl_cons, perform_write haccepts.valid, ha]
    rfl

theorem files_changeScript (answer : FileAnswer) (id : String) (change : Script → Option Script) :
    (d.changeScript text answer id change).2.files =
      (changeRequests scriptsDir text d id change).foldl (FileRequest.perform answer) d.files := by
  cases d.changeScript_cases text answer id change with
  | refused error hid hout =>
    rw [hout, changeRequests, hid]
    rfl
  | absent hid hscript hout =>
    rw [hout, changeRequests, hid, hscript]
    rfl
  | failed script error left hid hscript ha hout =>
    rw [hout, changeRequests, hid, hscript]
    dsimp only
    rw [List.foldl_cons, perform_write hid, ha, ScriptDirectory.writeFile_failed]
    rfl
  | changed script hid hscript ha hout =>
    rw [hout, changeRequests, hid, hscript]
    dsimp only
    rw [List.foldl_cons, perform_write hid, ha]
    rfl

private theorem files_delete (answer : FileAnswer) (id : String) :
    (d.delete answer id).2.files =
      (deleteRequests scriptsDir d id).foldl (FileRequest.perform answer) d.files := by
  have hremove : validateScriptId id = .ok () →
      FileRequest.perform answer d.files (.remove (scriptPath scriptsDir id)) =
        match answer with
        | .done => d.files.erase (scriptFileName id)
        | .failed .. => d.files := by
    intro hid
    rw [FileRequest.perform, FileRequest.path, fileName_scriptPath hid]
    simp only [String.ofList_toList]
  cases d.delete_cases answer id with
  | refused error hid hout =>
    rw [hout, deleteRequests, hid]
    rfl
  | absent hid hscript hout =>
    rw [hout, deleteRequests, hid, hscript]
    rfl
  | failed error left hid hscript ha hfile hout =>
    rw [hout, deleteRequests, hid]
    dsimp only
    rw [if_pos ⟨hscript, hfile⟩, List.foldl_cons, hremove hid, ha]
    rfl
  | removed hid hscript ha hout =>
    rw [hout, deleteRequests, hid]
    dsimp only
    cases hfile : d.files.lookup (scriptFileName id) with
    | none =>
      have hnone : d.files.erase (scriptFileName id) = d.files := by
        apply Finmap.ext_lookup
        intro name
        rw [lookup_erase_eq]
        split_ifs with hname
        · rw [hname, hfile]
        · rfl
      rw [if_neg, hnone]
      · rfl
      · intro hboth
        cases hboth.2
    | some content =>
      have hdone : answer = .done := by
        rcases ha with hdone | hnone
        · exact hdone
        · rw [hfile] at hnone
          cases hnone
      rw [if_pos ⟨hscript, rfl⟩, List.foldl_cons, hremove hid, hdone]
      rfl

theorem files_run (scriptsDir : String) (op : DirectoryOp) :
    (op.run text maxScripts d).2.files =
      (op.requests scriptsDir text maxScripts d).foldl (FileRequest.perform op.answer)
        d.files := by
  cases op with
  | save answer script => exact files_save answer script
  | addScript answer now definition =>
    have hsaved : (d.save text maxScripts answer
        (newVersion now definition (d.storage.get definition.id))).2.files =
          (saveRequests scriptsDir text maxScripts d _).foldl _ _ := files_save answer _
    rw [newVersion_definition] at hsaved
    rw [DirectoryOp.run, ScriptDirectory.addScript_eq_save]
    exact hsaved
  | enable answer now id => exact files_changeScript answer id _
  | disable answer now id => exact files_changeScript answer id _
  | rollbackScript answer now id => exact files_changeScript answer id _
  | delete answer id => exact files_delete answer id
  | setRunning id => rfl
  | updateResult id now success result => rfl

end Performed

/-! ## Confinement -/

section Confined
variable {scriptsDir : String} {text : DefinitionText} {maxScripts : ℕ} {d : ScriptDirectory}

def FileRequest.IsFor (scriptsDir id : String) (request : FileRequest) : Prop :=
  validateScriptId id = .ok () ∧ request.path = scriptPath scriptsDir id

private theorem isFor_saveRequests {definition : ScriptDefinition} {request : FileRequest}
    (h : request ∈ saveRequests scriptsDir text maxScripts d definition) :
    request.IsFor scriptsDir definition.id := by
  by_cases haccepts : d.Accepts maxScripts definition.id
  · rw [saveRequests_of_accepts haccepts] at h
    obtain rfl := List.mem_singleton.mp h
    exact ⟨haccepts.valid, rfl⟩
  · rw [saveRequests_of_not_accepts haccepts] at h
    exact absurd h List.not_mem_nil

theorem isFor_changeRequests {id : String} {change : Script → Option Script}
    {request : FileRequest} (h : request ∈ changeRequests scriptsDir text d id change) :
    request.IsFor scriptsDir id := by
  rw [changeRequests] at h
  rcases hid : validateScriptId id with error | valid
  · rw [hid] at h
    exact absurd h List.not_mem_nil
  · rw [hid] at h
    dsimp only at h
    cases hscript : (d.storage.get id).bind change with
    | none =>
      rw [hscript] at h
      exact absurd h List.not_mem_nil
    | some script =>
      rw [hscript] at h
      obtain rfl := List.mem_singleton.mp h
      exact ⟨hid, rfl⟩

private theorem isFor_deleteRequests {id : String} {request : FileRequest}
    (h : request ∈ deleteRequests scriptsDir d id) : request.IsFor scriptsDir id := by
  rw [deleteRequests] at h
  rcases hid : validateScriptId id with error | valid
  · rw [hid] at h
    exact absurd h List.not_mem_nil
  · rw [hid] at h
    dsimp only at h
    split_ifs at h
    · obtain rfl := List.mem_singleton.mp h
      exact ⟨hid, rfl⟩
    · exact absurd h List.not_mem_nil

private theorem isFor_requests {op : DirectoryOp} {request : FileRequest}
    (h : request ∈ op.requests scriptsDir text maxScripts d) :
    request.IsFor scriptsDir op.scriptId := by
  cases op with
  | save answer script => exact isFor_saveRequests h
  | addScript answer now definition => exact isFor_saveRequests h
  | enable answer now id => exact isFor_changeRequests h
  | disable answer now id => exact isFor_changeRequests h
  | rollbackScript answer now id => exact isFor_changeRequests h
  | delete answer id => exact isFor_deleteRequests h
  | setRunning id => exact absurd h List.not_mem_nil
  | updateResult id now success result => exact absurd h List.not_mem_nil

theorem isFor_requestsOfRun {ops : List StorageOp} {op : DirectoryOp} {request : FileRequest}
    (h : (op, request) ∈ requestsOfRun scriptsDir text maxScripts d ops) :
    request.IsFor scriptsDir op.scriptId := by
  induction ops generalizing d with
  | nil => exact absurd h List.not_mem_nil
  | cons first ops ih =>
    cases first with
    | loadAll now listing files => exact ih h
    | call first =>
      rcases List.mem_append.mp h with hfirst | hrest
      · obtain ⟨request', hmem, hpair⟩ := List.mem_map.mp hfirst
        obtain ⟨rfl, rfl⟩ := Prod.mk.inj hpair
        exact isFor_requests hmem
      · exact ih hrest

end Confined

/-- Whatever calls are made with whatever ids, each file that is written or removed is a direct
child of the scripts directory named by the id of the call, which is accepted, and no other
accepted id has this name. -/
theorem storageCalls_confined (scriptsDir : String) (text : DefinitionText) (maxScripts : ℕ) :
    (∀ d ops op request, (op, request) ∈ requestsOfRun scriptsDir text maxScripts d ops →
      validateScriptId op.scriptId = .ok () ∧
        DirectChild scriptsDir.toList (op.scriptId ++ ".json").toList request.path) ∧
      ∀ id id', validateScriptId id = .ok () → validateScriptId id' = .ok () → id ≠ id' →
        scriptFileName id ≠ scriptFileName id' := by
  refine ⟨fun d ops op request hmem => ?_, fun id id' _ _ hne => scriptFileName_injective.ne hne⟩
  obtain ⟨hvalid, hpath⟩ := isFor_requestsOfRun hmem
  have hname : (op.scriptId ++ ".json").toList = (scriptFileName op.scriptId).toList := by
    rw [toList_scriptFileName, String.toList_append]
    rfl
  refine ⟨hvalid, ?_⟩
  rw [hpath, hname]
  exact directChild_join scriptsDir.toList (plainName_scriptFileName hvalid)

/-- Deleting a script removes its own file. -/
theorem storageCalls_confined_pump :
    DirectChild "/etc/suderra/scripts".toList "pump.json".toList
      (scriptPath "/etc/suderra/scripts" "pump") :=
  ((storageCalls_confined "/etc/suderra/scripts" pumpText 100).1 storedPump
    [.call (.delete .done "pump")] (.delete .done "pump")
    (.remove (scriptPath "/etc/suderra/scripts" "pump")) (List.mem_singleton.mpr rfl)).2

end EdgeAgent.Scripting

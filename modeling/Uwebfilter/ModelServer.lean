import Mathlib.Logic.Function.Basic
import Uwebfilter.CStrings
import Uwebfilter.MachineRun

/-!
# The model server

`server.py` keeps models in files and loads them into a dictionary when they are
first asked for.  Training changes a file only where there is none, deletion
leaves the dictionary as it is.  Every answer follows from the requests handled
before it exactly where no file is deleted whose model has been loaded.
-/

namespace Uwebfilter

open CStrings

/-- What the server calls: the file system, `pickle`, `train` and
`Model.classify`.  A dataset that cannot be trained on raises. -/
structure ModelTools (File Content Model Csv Prediction : Type) where
  fileAt : Bytes → File
  dump : Model → Content
  load : Content → Model
  load_dump : ∀ model, load (dump model) = model
  train : Csv → Option Model
  classify : Model → Bytes → Prediction

inductive ModelRequest (Csv : Type)
  | inference (model text : Bytes)
  | train (name : Bytes) (csvfile : Csv)
  | modelsDelete (name : Bytes)

inductive ModelResponse (Prediction : Type)
  | classified (prediction : Prediction)
  | trained (name : Bytes)
  | deleted (name : Bytes)
  | notFound
  | conflict
  | internalError
  deriving DecidableEq

/-- The files and the dictionary `models`. -/
structure ModelState (File Content Model : Type) where
  files : File → Option Content
  models : Bytes → Option Model

section Server

variable {File Content Model Csv Prediction : Type} [DecidableEq File]
variable (tools : ModelTools File Content Model Csv Prediction)

def modelfile (name : Bytes) : File :=
  tools.fileAt (ascii ['m', 'o', 'd', 'e', 'l', 's', '/'] ++ name ++
    ascii ['.', 'p', 'i', 'c', 'k', 'l', 'e'])

def inference (state : ModelState File Content Model) (modelName text : Bytes) :
    ModelState File Content Model × ModelResponse Prediction :=
  match state.models modelName with
  | some model => (state, .classified (tools.classify model text))
  | none =>
      match state.files (modelfile tools modelName) with
      | none => (state, .notFound)
      | some content =>
          let model := tools.load content
          ({ state with models := Function.update state.models modelName (some model) },
            .classified (tools.classify model text))

def trainModel (state : ModelState File Content Model) (name : Bytes) (csvfile : Csv) :
    ModelState File Content Model × ModelResponse Prediction :=
  let file := modelfile tools name
  if (state.files file).isSome then (state, .conflict)
  else
    match tools.train csvfile with
    | none => (state, .internalError)
    | some utils =>
        ({ state with files := Function.update state.files file (some (tools.dump utils)) },
          .trained name)

def modelsDelete (state : ModelState File Content Model) (name : Bytes) :
    ModelState File Content Model × ModelResponse Prediction :=
  let file := modelfile tools name
  if (state.files file).isSome then
    ({ state with files := Function.update state.files file none }, .deleted name)
  else (state, .notFound)

def handleModelRequest (state : ModelState File Content Model) :
    ModelRequest Csv → ModelState File Content Model × ModelResponse Prediction
  | .inference model text => inference tools state model text
  | .train name csvfile => trainModel tools state name csvfile
  | .modelsDelete name => modelsDelete tools state name

/-- The server when it starts over some files. -/
def modelsStart (files : File → Option Content) : ModelState File Content Model :=
  ⟨files, fun _ => none⟩

/-! ## What the history says -/

/-- The models stored, where a request has been answered. -/
def storedNext (stored : File → Option Model) (request : ModelRequest Csv)
    (response : ModelResponse Prediction) : File → Option Model :=
  match request, response with
  | .train name csvfile, .trained _ =>
      Function.update stored (modelfile tools name) (tools.train csvfile)
  | .modelsDelete name, .deleted _ => Function.update stored (modelfile tools name) none
  | _, _ => stored

/-- The model of each file: what the last successful training stored there, or
what was there at first, unless it has been deleted since. -/
def storedModels (files : File → Option Content)
    (exchanges : List (ModelRequest Csv × ModelResponse Prediction)) : File → Option Model :=
  exchanges.foldl (fun stored exchange => storedNext tools stored exchange.1 exchange.2)
    fun file => (files file).map tools.load

variable (files : File → Option Content)

def modelsAfter (requests : List (ModelRequest Csv)) : ModelState File Content Model :=
  MachineRun.after (handleModelRequest tools) (modelsStart files) requests

def modelExchanges (requests : List (ModelRequest Csv)) :
    List (ModelRequest Csv × ModelResponse Prediction) :=
  requests.zip (MachineRun.outputs (handleModelRequest tools) (modelsStart files) requests)

/-- After the requests every inference is answered from the model that the
history says is stored. -/
def InfersFromHistory (requests : List (ModelRequest Csv)) : Prop :=
  ∀ model text, (inference tools (modelsAfter tools files requests) model text).2 =
    match storedModels tools files (modelExchanges tools files requests) (modelfile tools model) with
    | some stored => .classified (tools.classify stored text)
    | none => .notFound

/-! ## The dictionary and the history -/

/-- The request deletes a file whose model the dictionary holds. -/
def DeletesLoaded (state : ModelState File Content Model) : ModelRequest Csv → Prop
  | .modelsDelete name =>
      (state.files (modelfile tools name)).isSome = true ∧
        ∃ loaded, modelfile tools loaded = modelfile tools name ∧
          (state.models loaded).isSome = true
  | _ => False

/-- The history gives the contents of the files. -/
def Tracks (state : ModelState File Content Model) (stored : File → Option Model) : Prop :=
  ∀ file, stored file = (state.files file).map tools.load

/-- The dictionary holds nothing but models that are stored. -/
def Fresh (state : ModelState File Content Model) (stored : File → Option Model) : Prop :=
  ∀ name model, state.models name = some model → stored (modelfile tools name) = some model

variable {state : ModelState File Content Model} {stored : File → Option Model}

/-- One request with its answer leaves the history in step with the files. -/
theorem Tracks.step (tracks : Tracks tools state stored) (request : ModelRequest Csv) :
    Tracks tools (handleModelRequest tools state request).1
      (storedNext tools stored request (handleModelRequest tools state request).2) := by
  intro file
  cases request with
  | inference model text =>
      simp only [handleModelRequest, inference]
      split
      · exact tracks file
      · split
        · exact tracks file
        · exact tracks file
  | train name csvfile =>
      simp only [handleModelRequest, trainModel]
      split
      · exact tracks file
      · cases trained : tools.train csvfile with
        | none => exact tracks file
        | some utils =>
            simp only [storedNext, trained]
            by_cases same : file = modelfile tools name
            · subst same
              simp [tools.load_dump]
            · simp [Function.update_of_ne same, tracks file]
  | modelsDelete name =>
      simp only [handleModelRequest, modelsDelete]
      split
      · simp only [storedNext]
        by_cases same : file = modelfile tools name
        · subst same
          simp
        · simp [Function.update_of_ne same, tracks file]
      · exact tracks file

/-- A request that deletes no loaded model leaves the dictionary fresh. -/
theorem Fresh.step (tracks : Tracks tools state stored) (fresh : Fresh tools state stored)
    {request : ModelRequest Csv} (keeps : ¬ DeletesLoaded tools state request) :
    Fresh tools (handleModelRequest tools state request).1
      (storedNext tools stored request (handleModelRequest tools state request).2) := by
  cases request with
  | inference model text =>
      simp only [handleModelRequest, inference]
      split
      · exact fresh
      · split
        · exact fresh
        · rename_i content found
          intro name held holds
          dsimp only at holds
          by_cases same : name = model
          · subst same
            rw [Function.update_self] at holds
            have atFile := tracks (modelfile tools name)
            rw [found] at atFile
            exact atFile.trans holds
          · rw [Function.update_of_ne same] at holds
            exact fresh name held holds
  | train name csvfile =>
      simp only [handleModelRequest, trainModel]
      split
      · exact fresh
      · rename_i absent
        cases trained : tools.train csvfile with
        | none => exact fresh
        | some utils =>
            intro other held holds
            have before := fresh other held holds
            -- a file that was absent had no model to be loaded
            have differs : modelfile tools other ≠ modelfile tools name := by
              intro same
              rw [same, tracks, Option.not_isSome_iff_eq_none.mp absent] at before
              cases before
            simpa [storedNext, Function.update_of_ne differs] using before
  | modelsDelete name =>
      simp only [handleModelRequest, modelsDelete]
      split
      · rename_i present
        intro other held holds
        have differs : modelfile tools other ≠ modelfile tools name := fun same =>
          keeps ⟨present, other, same, by rw [holds]; rfl⟩
        simpa [storedNext, Function.update_of_ne differs] using fresh other held holds
      · exact fresh

omit [DecidableEq File] in
/-- What a fresh dictionary answers. -/
theorem inference_of_fresh (tracks : Tracks tools state stored)
    (fresh : Fresh tools state stored) (model text : Bytes) :
    (inference tools state model text).2 =
      match stored (modelfile tools model) with
      | some stored => .classified (tools.classify stored text)
      | none => .notFound := by
  simp only [inference]
  cases held : state.models model with
  | some loaded => rw [fresh model loaded held]
  | none =>
      rw [tracks]
      cases state.files (modelfile tools model) with
      | none => rfl
      | some content => rfl

/-! ## Runs -/

/-- What the history says after some requests. -/
def storedAfter (requests : List (ModelRequest Csv)) : File → Option Model :=
  storedModels tools files (modelExchanges tools files requests)

theorem storedAfter_snoc (requests : List (ModelRequest Csv)) (request : ModelRequest Csv) :
    storedAfter tools files (requests ++ [request]) =
      storedNext tools (storedAfter tools files requests) request
        (handleModelRequest tools (modelsAfter tools files requests) request).2 := by
  have exchanges : modelExchanges tools files (requests ++ [request]) =
      modelExchanges tools files requests ++
        [(request, (handleModelRequest tools (modelsAfter tools files requests) request).2)] := by
    rw [modelExchanges, MachineRun.outputs_append, List.zip_append (by simp)]
    rfl
  rw [storedAfter, storedModels, exchanges, List.foldl_append]
  rfl

theorem modelsAfter_snoc (requests : List (ModelRequest Csv)) (request : ModelRequest Csv) :
    modelsAfter tools files (requests ++ [request]) =
      (handleModelRequest tools (modelsAfter tools files requests) request).1 := by
  simp [modelsAfter]

theorem tracks_run (requests : List (ModelRequest Csv)) :
    Tracks tools (modelsAfter tools files requests) (storedAfter tools files requests) := by
  induction requests using List.reverseRecOn with
  | nil => exact fun file => rfl
  | append_singleton requests request ih =>
      rw [modelsAfter_snoc, storedAfter_snoc]
      exact ih.step tools request

/-- No request of a run deletes a file whose model has been loaded. -/
def NeverDeletesLoaded (requests : List (ModelRequest Csv)) : Prop :=
  MachineRun.EveryStep (handleModelRequest tools) (modelsStart files)
    (fun state request => ¬ DeletesLoaded tools state request) requests

theorem fresh_run {requests : List (ModelRequest Csv)}
    (keeps : NeverDeletesLoaded tools files requests) :
    Fresh tools (modelsAfter tools files requests) (storedAfter tools files requests) := by
  induction requests using List.reverseRecOn with
  | nil =>
      intro name model holds
      cases holds
  | append_singleton requests request ih =>
      obtain ⟨before, last⟩ := (MachineRun.everyStep_snoc _ _).mp keeps
      rw [modelsAfter_snoc, storedAfter_snoc]
      exact Fresh.step tools (tracks_run tools files requests) (ih before) last

/-- A file deleted while its model is loaded is still inferred with. -/
theorem not_infers_of_deletesLoaded {requests : List (ModelRequest Csv)}
    {request : ModelRequest Csv}
    (deletes : DeletesLoaded tools (modelsAfter tools files requests) request) :
    ¬ InfersFromHistory tools files (requests ++ [request]) := by
  intro infers
  cases request with
  | modelsDelete name =>
      obtain ⟨present, loaded, same, held⟩ := deletes
      obtain ⟨model, holds⟩ := Option.isSome_iff_exists.mp held
      have deleted : handleModelRequest tools (modelsAfter tools files requests)
          (.modelsDelete name : ModelRequest Csv) =
            ({ modelsAfter tools files requests with
                files := Function.update (modelsAfter tools files requests).files
                  (modelfile tools name) none }, .deleted name) := by
        rw [handleModelRequest, modelsDelete, if_pos present]
      have gone : storedAfter tools files (requests ++ [.modelsDelete name])
          (modelfile tools loaded) = none := by
        rw [storedAfter_snoc, deleted, same]
        exact Function.update_self ..
      have answer := infers loaded []
      rw [← storedAfter, gone, modelsAfter_snoc, deleted] at answer
      simp [inference, holds] at answer
  | inference model text => exact deletes
  | train name csvfile => exact deletes

/-- In every run every inference is answered from the model that the history says
is stored, in every state reached, exactly where no request deletes a file whose
model has been loaded. -/
theorem infersFromHistory_iff (requests : List (ModelRequest Csv)) :
    (∀ earlier, earlier <+: requests → InfersFromHistory tools files earlier) ↔
      NeverDeletesLoaded tools files requests := by
  have infers_of_keeps {earlier : List (ModelRequest Csv)}
      (keeps : NeverDeletesLoaded tools files earlier) : InfersFromHistory tools files earlier :=
    inference_of_fresh tools (tracks_run tools files earlier) (fresh_run tools files keeps)
  apply MachineRun.throughout_iff
  · exact infers_of_keeps (MachineRun.everyStep_nil _ _ _)
  · intro earlier request _ keeps
    constructor
    · intro infers deletes
      exact not_infers_of_deletesLoaded tools files deletes infers
    · intro kept
      exact infers_of_keeps ((MachineRun.everyStep_snoc _ _).mpr ⟨keeps, kept⟩)

end Server

/-- Tools whose models are the datasets, and whose predictions are the models. -/
def plainTools : ModelTools Bytes Bytes Bytes Bytes Bytes where
  fileAt := id
  dump := id
  load := id
  load_dump := fun _ => rfl
  train := some
  classify := fun model _ => model

/-- A model that is trained, used, deleted and used again answers after its
deletion. -/
theorem not_infersFromHistory_deleted :
    ¬ ∀ earlier, earlier <+: [.train [109] [1], .inference [109] [], .modelsDelete [109]] →
      InfersFromHistory plainTools (fun _ => none) earlier := by
  intro infers
  have answer := infers _ List.prefix_rfl [109] []
  revert answer
  decide

end Uwebfilter

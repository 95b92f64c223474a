import Mathlib
import Stencil.CommandLine

/-! The stages of the command that renders, over any readers. Each of them is asked what it finds
wrong as if it stood alone, and the command fails with the first of these faults. Nothing is written
before the last stage is done, so the output is all there or not there at all. -/

namespace Stencil

def errorOf? {ε α : Type} : Except ε α → Option ε
  | .error error => some error
  | .ok _ => none

theorem findSome?_id_cons {α : Type} (option : Option α) (others : List (Option α)) :
    (option :: others).findSome? id = option.or (others.findSome? id) := by
  cases option <;> rfl

/-- What is in the files, by their paths. -/
abbrev Answers := String → Except ReadFault String

namespace Answers
variable (answer : Answers) (readers : Readers)

/-- What is wrong with the file of the settings, or with what it holds. -/
def settingsFault? (config : Option String) : Option Failure :=
  config.bind fun path =>
    match answer path with
    | .error fault => some (.settingsFile fault)
    | .ok text => (errorOf? (readers.settings text)).map .settings

def fileFault? (path : String) : Option Failure :=
  (errorOf? (answer path)).map (.file path)

def modelFault? (path : String) : Option Failure :=
  (answer path).toOption.bind fun text => (errorOf? (readers.model text)).map (.model path)

def templateFault? (template : String) (limit : Nat) : Option Failure :=
  (answer template).toOption.bind fun source =>
    (errorOf? (Settings.compile ⟨limit⟩ source).result).map .template

/-- The limit that is given on its own, or else the one of the settings, or else 64. -/
def limit (config : Option String) (maxDepth : Option Nat) : Nat :=
  let settings? := config.bind fun path =>
    (answer path).toOption.bind fun text => (readers.settings text).toOption
  (maxDepth.or (settings?.map Settings.maxNestingDepth)).getD 64

/-- The faults of all stages in their order, none of which minds what was wrong before it. -/
def faults (template : String) (model config : Option String) (maxDepth : Option Nat) :
    List (Option Failure) :=
  [answer.settingsFault? readers config,
    model.bind answer.fileFault?,
    model.bind (answer.modelFault? readers),
    answer.fileFault? template,
    answer.templateFault? template (answer.limit readers config maxDepth)]

/-- The value of the model's file; null, if none is given. -/
def IsModel : Option String → Value → Prop
  | none, value => value = .null
  | some path, value =>
    ∃ text json, answer path = .ok text ∧ readers.model text = .ok json ∧ value = .ofJson json

/-- The text that the template renders to, against the model and under the limit. -/
def Renders (template : String) (model config : Option String) (maxDepth : Option Nat)
    (text : String) : Prop :=
  ∃ source value, answer template = .ok source ∧ answer.IsModel readers model value ∧
    (Settings.render ⟨answer.limit readers config maxDepth⟩ .empty source value).result = .ok text

def read {m : Type → Type} [Monad m] (path : String) : m (Except ReadFault String) :=
  pure (answer path)

end Answers

namespace Command
variable {m : Type → Type} [Monad m]

/-- A stage that fails with its fault, if it has one, and gives such a value if it has none. -/
def Stage {α : Type} (run : ExceptT Failure m α) (fault? : Option Failure) (Gives : α → Prop) :
    Prop :=
  match fault? with
  | some failure => run = throw failure
  | none => ∃ value, Gives value ∧ run = pure value

theorem Stage.mono {α : Type} {run : ExceptT Failure m α} {fault? : Option Failure}
    {Gives Gives' : α → Prop} (h : Stage run fault? Gives)
    (h' : ∀ value, Gives value → Gives' value) : Stage run fault? Gives' := by
  cases fault? with
  | some failure => exact h
  | none =>
    obtain ⟨value, hvalue, hrun⟩ := h
    exact ⟨value, h' value hvalue, hrun⟩

theorem render_stage {answer : Answers} {template source : String}
    (hsource : answer template = .ok source) (limit : Nat) (model : Value) :
    Stage
      (match (Settings.render ⟨limit⟩ .empty source model).result with
        | .error error => throw (.template error)
        | .ok text => return text : ExceptT Failure m String)
      (answer.templateFault? template limit)
      (fun text => (Settings.render ⟨limit⟩ .empty source model).result = .ok text) := by
  unfold Answers.templateFault?
  rw [hsource]
  unfold Settings.render
  cases hcompile : (Settings.compile ⟨limit⟩ source).result with
  | error error => simp [Stage, hcompile, errorOf?, Except.toOption]
  | ok template => simp [Stage, hcompile, errorOf?, Except.toOption]

variable [LawfulMonad m] {answer : Answers} {readers : Readers}

/-- A fault keeps all later stages from being tried. -/
theorem Stage.bind {α β : Type} {run : ExceptT Failure m α} {next : α → ExceptT Failure m β}
    {fault? fault'? : Option Failure} {Gives : α → Prop} {Gives' : β → Prop}
    (h : Stage run fault? Gives) (h' : ∀ value, Gives value → Stage (next value) fault'? Gives') :
    Stage (run >>= next) (fault?.or fault'?) Gives' := by
  cases fault? with
  | some failure =>
    have hrun : run = throw failure := h
    show run >>= next = throw failure
    rw [hrun, ExceptT.bind_throw]
  | none =>
    obtain ⟨value, hvalue, rfl⟩ := h
    rw [pure_bind]
    exact h' value hvalue

theorem settings_stage (config : Option String) (maxDepth : Option Nat) :
    Stage (readSettings readers answer.read config maxDepth : ExceptT Failure m Settings)
      (answer.settingsFault? readers config) (· = ⟨answer.limit readers config maxDepth⟩) := by
  unfold readSettings Answers.settingsFault? Answers.limit Answers.read
  cases config with
  | none => cases maxDepth <;> simp [Stage, defaultLimit]
  | some path =>
    cases hread : answer path with
    | error fault => simp [Stage, hread]
    | ok text =>
      cases hsettings : readers.settings text with
      | error fault => simp [Stage, hread, hsettings, errorOf?, readSettings.liftExcept]
      | ok settings =>
        cases maxDepth <;>
          simp [Stage, hread, hsettings, errorOf?, readSettings.liftExcept, Except.toOption]

theorem file_stage (path : String) :
    Stage (readFile answer.read path : ExceptT Failure m String) (answer.fileFault? path)
      (answer path = .ok ·) := by
  unfold readFile Answers.fileFault? Answers.read
  cases answer path <;> simp [Stage, errorOf?]

theorem model_stage (model : Option String) :
    Stage (readModel readers answer.read model : ExceptT Failure m Value)
      ((model.bind answer.fileFault?).or (model.bind (answer.modelFault? readers)))
      (answer.IsModel readers model) := by
  cases model with
  | none => exact ⟨.null, rfl, rfl⟩
  | some path =>
    refine (file_stage path).bind fun text htext => ?_
    show Stage _ (answer.modelFault? readers path) _
    unfold Answers.modelFault?
    cases hjson : readers.model text with
    | error fault => simp [Stage, htext, hjson, errorOf?, Except.toOption]
    | ok json => simp [Stage, htext, hjson, errorOf?, Except.toOption, Answers.IsModel]

theorem output_stage (template : String) (model config : Option String) (maxDepth : Option Nat) :
    Stage
      (output readers answer.read (.render template model config maxDepth) :
        ExceptT Failure m String)
      ((answer.faults readers template model config maxDepth).findSome? id)
      (answer.Renders readers template model config maxDepth) := by
  have hfaults : (answer.faults readers template model config maxDepth).findSome? id =
      (answer.settingsFault? readers config).or
        (((model.bind answer.fileFault?).or (model.bind (answer.modelFault? readers))).or
          ((answer.fileFault? template).or
            (answer.templateFault? template (answer.limit readers config maxDepth)))) := by
    simp only [Answers.faults, findSome?_id_cons, List.findSome?_nil, Option.or_none, Option.or_assoc]
  rw [hfaults]
  unfold output
  refine (settings_stage config maxDepth).bind ?_
  rintro _ rfl
  refine (model_stage model).bind fun value hvalue => ?_
  refine (file_stage template).bind fun source hsource => ?_
  refine (render_stage hsource _ value).mono fun text htext => ?_
  exact ⟨source, value, hsource, hvalue, htext⟩

end Command

/-- The command that renders writes nothing but the whole text of the template, or fails with the
first fault of its stages: of the settings, of the model's file and of its JSON text, and of the
template's file and of its text. What is wrong behind the first fault makes no difference. -/
theorem Readers.runArguments_render (readers : Readers) (m : Type → Type) [Monad m] [LawfulMonad m]
    (answer : Answers) {arguments : List String} {template : String} {model config : Option String}
    {maxDepth : Option Nat}
    (h : readers.command arguments = .ok (.render template model config maxDepth)) :
    let outcome : m Outcome := readers.runArguments answer.read arguments
    let fault? := (answer.faults readers template model config maxDepth).findSome? id
    (∀ failure, fault? = some failure →
      outcome = pure ⟨1, "", "Error: " ++ failure.message ++ "\n"⟩) ∧
      (fault? = none → ∃ text, answer.Renders readers template model config maxDepth text ∧
        outcome = pure ⟨0, text, ""⟩) := by
  intro outcome fault?
  let command : Command := .render template model config maxDepth
  have houtcome : outcome = command.run readers answer.read := by
    simp only [outcome, Readers.runArguments, h, command]
  have hstage :
      Command.Stage (command.output readers answer.read : ExceptT Failure m String) fault?
        (answer.Renders readers template model config maxDepth) :=
    Command.output_stage template model config maxDepth
  rw [houtcome, Command.run]
  constructor
  · intro failure hfault
    rw [hfault] at hstage
    have hrun : command.output readers answer.read = throw failure := hstage
    rw [hrun, ExceptT.run_throw, map_pure, Outcome.ofResult]
  · intro hfault
    rw [hfault] at hstage
    obtain ⟨text, htext, hrun⟩ := hstage
    refine ⟨text, htext, ?_⟩
    rw [hrun, ExceptT.run_pure, map_pure, Outcome.ofResult]

/-- An empty file for the settings, and no file for the model and for the template: what is reported
are the settings. With the files in place, the limit that is given on its own outdoes theirs. -/
theorem Readers.runArguments_render_empty_settings :
    let answer : Answers := fun path => if path = "c" then .ok "" else .error .missing
    let answer' : Answers := fun path =>
      if path = "c" then .ok "[0]" else .ok "a\x7b\x7b if model \x7d\x7db\x7b\x7b endif \x7d\x7d"
    standard.command ["render", "t", "-cc", "--model=m"] =
        .ok (.render "t" (some "m") (some "c") none) ∧
      (answer.faults standard "t" (some "m") (some "c") none).findSome? id =
        some (.settings "EOF while parsing a value at line 1 column 0") ∧
      (standard.runArguments answer.read ["render", "t", "-cc", "--model=m"] : Id Outcome) =
        pure ⟨1, "", "Error: invalid config: EOF while parsing a value at line 1 column 0\n"⟩ ∧
      (standard.runArguments answer'.read ["render", "--max-depth", "1", "-c", "c", "t"] :
          Id Outcome) = pure ⟨0, "a", ""⟩ := by
  intro answer answer'
  have hcommand : standard.command ["render", "t", "-cc", "--model=m"] =
      .ok (.render "t" (some "m") (some "c") none) := by
    cbv
  have hsettings : standard.settings "" = .error "EOF while parsing a value at line 1 column 0" :=
    rfl
  have hfault : (answer.faults standard "t" (some "m") (some "c") none).findSome? id =
      some (.settings "EOF while parsing a value at line 1 column 0") := by
    simp [Answers.faults, Answers.settingsFault?, answer, hsettings, errorOf?]
  have hcommand' : standard.command ["render", "--max-depth", "1", "-c", "c", "t"] =
      .ok (.render "t" none (some "c") (some 1)) := by
    cbv
  have hfault' : (answer'.faults standard "t" none (some "c") (some 1)).findSome? id = none := by
    cbv
  refine ⟨hcommand, hfault, (standard.runArguments_render Id answer hcommand).1 _ hfault, ?_⟩
  obtain ⟨text, ⟨source, value, hsource, hvalue, htext⟩, houtcome⟩ :=
    (standard.runArguments_render Id answer' hcommand').2 hfault'
  obtain rfl : value = .null := hvalue
  cases hsource
  have hrendered : (Settings.render ⟨answer'.limit standard (some "c") (some 1)⟩ .empty
      "a\x7b\x7b if model \x7d\x7db\x7b\x7b endif \x7d\x7d" .null).result = .ok "a" := by
    cbv
  obtain rfl : "a" = text := by
    simpa using hrendered.symm.trans htext
  exact houtcome

end Stencil

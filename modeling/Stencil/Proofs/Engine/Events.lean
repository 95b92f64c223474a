import Stencil.View
import Stencil.Proofs.Render.Visits

/-! What is recorded of a whole run: of its tokens, of the tree that they spell, of the view that
is rendered, and of each loop that is passed over, in this order. A template that is refused ends
the records, and a view that is not provided leaves none. -/

namespace Stencil

structure Record where
  level : Level
  message : String
  fields : List (String × String)
deriving DecidableEq, Repr

def Event.record (event : Event) : Record :=
  ⟨event.level, event.message, event.fields⟩

def Traced.records {α : Type} (traced : Traced α) : List Record :=
  traced.events.map Event.record

def tokenRecords (source : String) : List Record :=
  [⟨.debug, "tokenized template", [("tokens", toString (tokenize source).length)]⟩,
    ⟨.trace, "tokens:\n" ++ dump (tokenize source), []⟩]

def treeRecords (template : Template) : List Record :=
  [⟨.debug, "parsed template", [("nodes", toString template.length)]⟩,
    ⟨.trace, "ast:\n" ++ template.outline "", []⟩]

def viewRecord (name : String) : Record :=
  ⟨.debug, "rendering view", [("view", name)]⟩

/-- What is recorded of a loop that finds no list. -/
def loopRecord (items : Path) : Record :=
  ⟨.debug, "foreach over a value that is not a list; rendering nothing",
    [("collection", items.display)]⟩

/-- What is recorded while a template is rendered against a model: each visit of a loop that finds
no list. -/
def loopRecords (host : Host) (model : Value) (template : Template) : List Record :=
  ((template.visits host (Context.ofModel host model).lookup).filterMap
    Visit.passedOver?).map loopRecord

theorem skipped_render (host : Host) (model : Value) (template : Template) :
    ((template.render host model).skipped.reverse.map Event.skipped).map Event.record =
      loopRecords host model template := by
  rw [Template.render, skipped_renderIn, List.map_map]
  rfl

namespace Settings

/-- What is recorded of a run: these records stand between those of the tree and of the loops. If
the tokens are refused, they are all that is recorded. -/
def runRecords (settings : Settings) (host : Host) (source : String) (model : Value)
    (between : List Record) : List Record :=
  tokenRecords source ++
    match parseTokens (tokenize source) settings.maxNestingDepth with
    | .error _ => []
    | .ok template => treeRecords template ++ between ++ loopRecords host model template

section
variable {settings : Settings} {source : String}

theorem compile_of_error {error : ParseError}
    (h : parseTokens (tokenize source) settings.maxNestingDepth = .error error) :
    (settings.compile source).result = .error error ∧
      (settings.compile source).records = tokenRecords source := by
  constructor
  · simp only [compile, h]
  · simp only [compile, h]
    rfl

theorem compile_of_ok {template : Template}
    (h : parseTokens (tokenize source) settings.maxNestingDepth = .ok template) :
    (settings.compile source).result = .ok template ∧
      (settings.compile source).records = tokenRecords source ++ treeRecords template := by
  constructor
  · simp only [compile, h]
  · simp only [compile, h]
    rfl

end

theorem records_finish (events : List Event) (host : Host) (model : Value) (template : Template) :
    (finish events (template.render host model)).records =
      events.map Event.record ++ loopRecords host model template := by
  rw [Traced.records, finish, List.map_append, skipped_render]

theorem records_render (settings : Settings) (host : Host) (source : String) (model : Value) :
    (settings.render host source model).records =
      settings.runRecords host source model [] := by
  unfold render runRecords
  cases hparse : parseTokens (tokenize source) settings.maxNestingDepth with
  | error error =>
    obtain ⟨hresult, hrecords⟩ := compile_of_error hparse
    simp only [hresult]
    exact hrecords.trans (List.append_nil _).symm
  | ok template =>
    obtain ⟨hresult, hrecords⟩ := compile_of_ok hparse
    simp only [hresult]
    refine (records_finish _ host model template).trans ?_
    rw [← Traced.records, hrecords, List.append_nil, List.append_assoc]

theorem records_renderView (settings : Settings) (host : Host) (views : ViewSource) (name : String)
    (model : Value) :
    (settings.renderView host views name model).records =
      match views name with
      | .error _ => []
      | .ok source => settings.runRecords host source model [viewRecord name] := by
  unfold renderView runRecords
  cases views name with
  | error error => rfl
  | ok source =>
    cases hparse : parseTokens (tokenize source) settings.maxNestingDepth with
    | error error =>
      obtain ⟨hresult, hrecords⟩ := compile_of_error hparse
      simp only [hresult, hparse]
      exact hrecords.trans (List.append_nil _).symm
    | ok template =>
      obtain ⟨hresult, hrecords⟩ := compile_of_ok hparse
      simp only [hresult, hparse]
      refine (records_finish _ host model template).trans ?_
      rw [List.map_append, ← Traced.records, hrecords, List.append_assoc, List.append_assoc,
        List.append_assoc]
      rfl

/-- A run records its tokens and, if they are accepted, their tree and then each visit of a loop
that finds no list, in the order of the visits. If it renders a view, the view is recorded behind
the tree, and nothing is recorded of a view that is not provided. -/
theorem records_of_run (settings : Settings) (host : Host) (model : Value) :
    (∀ source, (settings.render host source model).records =
      settings.runRecords host source model []) ∧
    ∀ (views : ViewSource) name, (settings.renderView host views name model).records =
      match views name with
      | .error _ => []
      | .ok source => settings.runRecords host source model [viewRecord name] :=
  ⟨fun source => records_render settings host source model,
    fun views name => records_renderView settings host views name model⟩

end Settings
end Stencil

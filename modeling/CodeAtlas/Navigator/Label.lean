import CodeAtlas.Embedding.ModelServer
import CodeAtlas.Json.Reader
import CodeAtlas.Text.Basic

/-!
# Names for clusters

The clusters that a cluster is divided into are named together: a generator of texts is shown some
files of each and asked for a list of names. Whatever it answers, names are found: what the files of
a cluster have in common, or its number, stand in for an answer that cannot be used.

* `labelPrompt` — what the generator is asked.
* `parseLabels` — the names in an answer: a JSON list of texts anywhere in it.
* `labelSiblings` — names for some clusters.
-/

namespace CodeAtlas.Navigator

open CodeAtlas.Text

/-- A generator of texts: what it makes of a prompt, and its state after that. -/
abbrev Labeler (σ : Type) := String → σ → Completion × σ

/-- A cluster that waits for its name. -/
structure SiblingGroup where
  /-- what its files have in common -/
  pattern : Option String
  /-- its files -/
  files : List String
  deriving DecidableEq, Inhabited

/-- How many characters of a name are kept. -/
def labelChars : Nat := 60

/-- How many files of each cluster are shown. -/
def filesShown : Nat := 8

/-! ## Asking -/

/-- The part of the prompt that shows one cluster. -/
def groupPrompt (number : Nat) (g : SiblingGroup) : String :=
  let title := match g.pattern with
    | some pattern => s!"Group {number} ({pattern}):\n"
    | none => s!"Group {number}:\n"
  let more := if filesShown < g.files.length then
      s!"  ... and {g.files.length - filesShown} more\n" else ""
  title ++ String.join ((g.files.take filesShown).map fun file => s!"  {file}\n") ++ more

/-- What the generator is asked. -/
def labelPrompt (groups : List SiblingGroup) : String :=
  let n := groups.length
  "You are naming groups of source files in a code repository.\n" ++
    s!"Give each of the {n} groups below a short label of 2 to 5 words describing " ++
    "what its files are about.\n" ++
    s!"Reply with only a JSON array of {n} strings, in group order.\n\n" ++
    String.join (groups.zipIdx.map fun (g, i) => groupPrompt (i + 1) g)

/-! ## Reading the answer -/

/-- The part of a text from its first opening bracket to its last closing one. -/
def bracketed? (text : String) : Option String :=
  let fromOpen := text.toList.dropWhile (· ≠ '[')
  let toClose := (fromOpen.reverse.dropWhile (· ≠ ']')).reverse
  if toClose.isEmpty then none else some (String.ofList toClose)

/-- A name as it is kept: without outer blanks, and cut. -/
def trimLabel (label : String) : String :=
  truncate (trim label) labelChars

/-- The names in an answer, if there are as many as expected and none is blank. -/
def parseLabels (text : String) (expected : Nat) : Option (List String) := do
  let json ← (bracketed? text).bind Json.parse?
  let items ← json.items?
  let labels ← items.mapM Json.text?
  let trimmed := labels.map trimLabel
  if labels.length = expected && trimmed.all (· ≠ "") then some trimmed else none

/-! ## Naming -/

/-- The name of a cluster without a generator. -/
def fallbackLabel (pattern : Option String) (number : Nat) : String :=
  pattern.getD s!"Cluster {number}"

/-- The names of clusters without a generator. -/
def fallbackLabels (groups : List SiblingGroup) : List String :=
  groups.zipIdx.map fun (g, i) => fallbackLabel g.pattern (i + 1)

/-- Names for clusters. A single cluster is not worth a question. -/
def labelSiblings {σ : Type} (labeler : Option (Labeler σ)) (groups : List SiblingGroup) (s : σ) :
    List String × σ :=
  match labeler with
  | none => (fallbackLabels groups, s)
  | some complete =>
    if groups.length < 2 then (fallbackLabels groups, s)
    else
      match complete (labelPrompt groups) s with
      | (.text text, s) => ((parseLabels text groups.length).getD (fallbackLabels groups), s)
      | (.unavailable _, s) => (fallbackLabels groups, s)

end CodeAtlas.Navigator

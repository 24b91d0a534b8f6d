/-!
# Statement/Keyword — the words that statements begin with

Some keywords come in families: those that begin a step, and those of the settings that a script, a
scenario and a step can all have.  `ofWord?_word` says that no two keywords share a word.
-/

namespace ScenarioScript

/-- What a step does. -/
inductive StepKind where
  | visit
  | click
  | submit
  | follow
  | reload
  deriving DecidableEq, Repr, Inhabited

namespace StepKind

/-- The word that begins such a step. -/
def word : StepKind → String
  | visit => "visit"
  | click => "click"
  | submit => "submit"
  | follow => "follow"
  | reload => "reload"

/-- Does such a step act on a target? -/
def hasTarget : StepKind → Bool
  | visit | click | submit => true
  | follow | reload => false

end StepKind

/-- The settings that a script, a scenario and a step can all have. -/
inductive SettingKey where
  | auth
  | header
  | blackfire
  | followRedirects
  | warmup
  | samples
  | wait
  deriving DecidableEq, Repr, Inhabited

/-- The word that begins such a setting. -/
def SettingKey.word : SettingKey → String
  | auth => "auth"
  | header => "header"
  | blackfire => "blackfire"
  | followRedirects => "follow_redirects"
  | warmup => "warmup"
  | samples => "samples"
  | wait => "wait"

/-- The keywords. -/
inductive Keyword where
  | scenario
  | group
  /-- Include a group. -/
  | inclusion
  | load
  /-- Bind a name. -/
  | bind
  | endpoint
  | name
  | method
  | body
  | param
  | json
  | expect
  | setting (key : SettingKey)
  | step (kind : StepKind)
  deriving DecidableEq, Repr, Inhabited

namespace Keyword

/-- The word of a keyword. -/
def word : Keyword → String
  | scenario => "scenario"
  | group => "group"
  | inclusion => "include"
  | load => "load"
  | bind => "set"
  | endpoint => "endpoint"
  | name => "name"
  | method => "method"
  | body => "body"
  | param => "param"
  | json => "json"
  | expect => "expect"
  | setting key => key.word
  | step kind => kind.word

/-- Every keyword. -/
def all : List Keyword :=
  [scenario, group, inclusion, load, bind, endpoint, name, method, body, param, json, expect,
    setting .auth, setting .header, setting .blackfire, setting .followRedirects, setting .warmup,
    setting .samples, setting .wait, step .visit, step .click, step .submit, step .follow,
    step .reload]

theorem mem_all (k : Keyword) : k ∈ all := by
  rcases k with _ | _ | _ | _ | _ | _ | _ | _ | _ | _ | _ | _ | (_ | _ | _ | _ | _ | _ | _) |
    (_ | _ | _ | _ | _) <;> decide

/-- The keyword that a word is, if it is one. -/
def ofWord? (word : String) : Option Keyword := all.find? (·.word == word)

/-- **A keyword is known by its word.** -/
theorem ofWord?_word (k : Keyword) : ofWord? k.word = some k := by
  have : ∀ k ∈ all, ofWord? k.word = some k := by decide
  exact this k (mem_all k)

/-- **A word stands for one keyword** at most. -/
theorem word_of_ofWord? {word : String} {k : Keyword} (h : ofWord? word = some k) :
    k.word = word := by
  simpa using List.find?_some h

end Keyword

end ScenarioScript

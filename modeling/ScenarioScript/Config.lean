import ScenarioScript.Expression.Tree

/-!
# Config — the settings of a script, a scenario or a step

Settings are handed down: what a script sets holds in its scenarios, and what a scenario sets
holds in its steps, unless the inner level sets it anew.  Headers are gathered instead, those of
the outer level first.  `merged` is one such step down, and `update` folds the settings of a script
that is loaded into those there are.
-/

namespace ScenarioScript

/-- Whether a page is fetched before it is measured. -/
inductive Warmup where
  | on
  | off
  | auto
  deriving DecidableEq, Repr, Inhabited

namespace Warmup

/-- A mode as it is written. -/
def text : Warmup → String
  | on => "true"
  | off => "false"
  | auto => "'auto'"

/-- The mode that is written so. -/
def ofText? (text : String) : Option Warmup := [on, off, auto].find? (·.text == text)

@[simp] theorem ofText?_text (w : Warmup) : ofText? w.text = some w := by cases w <;> decide

end Warmup

/-- The settings of one level. -/
structure Config where
  endpoint : Option Tree := none
  name : Option Tree := none
  auth : Option Tree := none
  headers : List Tree := []
  blackfire : Option Tree := none
  followRedirects : Option Bool := none
  warmup : Option Warmup := none
  samples : Option Nat := none
  wait : Option Tree := none
  deriving DecidableEq, Repr, Inhabited

namespace Config

/-- No setting at all. -/
def empty : Config := {}

/-- **The settings in force** inside `outer` where `inner` is set as well. -/
def merged (outer inner : Config) : Config where
  endpoint := inner.endpoint.or outer.endpoint
  name := inner.name.or outer.name
  auth := inner.auth.or outer.auth
  headers := outer.headers ++ inner.headers
  blackfire := inner.blackfire.or outer.blackfire
  followRedirects := inner.followRedirects.or outer.followRedirects
  warmup := inner.warmup.or outer.warmup
  samples := inner.samples.or outer.samples
  wait := inner.wait.or outer.wait

/-- The settings, one by one. -/
inductive Slot where
  | endpoint
  | name
  | auth
  | headers
  | blackfire
  | followRedirects
  | warmup
  | samples
  | wait
  deriving DecidableEq, Repr

namespace Slot

/-- Every setting, in the order in which they are declared. -/
def all : List Slot :=
  [endpoint, name, auth, headers, blackfire, followRedirects, warmup, samples, wait]

/-- The settings `c` with one of them as it is in `source`. -/
def takeOver (source c : Config) : Slot → Config
  | endpoint => { c with endpoint := source.endpoint }
  | name => { c with name := source.name }
  | auth => { c with auth := source.auth }
  | headers => { c with headers := source.headers }
  | blackfire => { c with blackfire := source.blackfire }
  | followRedirects => { c with followRedirects := source.followRedirects }
  | warmup => { c with warmup := source.warmup }
  | samples => { c with samples := source.samples }
  | wait => { c with wait := source.wait }

end Slot

/-- **Fold in the settings of another level**: every setting is taken over, one after the other, from
what is in force where the other level is inside. -/
def update (c inner : Config) : Config := Slot.all.foldl (Slot.takeOver (c.merged inner)) c

/-- The texts of the headers. -/
def headerTexts (c : Config) : List String := c.headers.map (·.text)

end Config

end ScenarioScript

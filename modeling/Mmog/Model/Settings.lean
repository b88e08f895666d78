import Mmog.Ruby.Run
import Mmog.Ruby.Text

/-!
# Settings

A setting is a row with a key and a text.  Numbers and truth values are written with
a prefix.  A process can keep a hash of the settings that it has set or read.
-/

namespace Mmog.GameSettings

open Ruby

/-- A string or a symbol. -/
inductive Key where
  | str (name : String)
  | sym (name : String)
  deriving DecidableEq

/-- `to_s`. -/
def Key.toS : Key → String
  | .str name => name
  | .sym name => name

inductive Value where
  | str (text : String)
  | int (number : ℤ)
  | bool (truth : Bool)
  deriving DecidableEq

/-- What the hash holds and `get` returns; a key that is merged twice may have more than one value. -/
inductive Entry where
  | one (value : Value)
  | many (values : List Value)
  deriving DecidableEq

abbrev Cache := Key → Option Entry

/-- `append_merge!`, which stores a value under an absent key; what becomes of a key that is present is left open. -/
structure AppendMerge where
  run : Cache → Key → Value → Cache
  stores : ∀ cache key value, cache key = none → run cache key value key = some (.one value)
  others : ∀ cache key value other, other ≠ key → run cache key value other = cache other

structure Row where
  key : String
  value : String
  deriving DecidableEq

/-- The table and what the process remembers. -/
structure State where
  rows : List Row
  /-- `@@settings` -/
  settings : Cache
  /-- `@@caching` -/
  caching : Option Bool

/-! ## Texts -/

/-- The text of a value, which is also what `to_s` makes of the text. -/
def encode : Value → String
  | .str text => text
  | .int number => "__i__:" ++ toString number
  | .bool truth => "__b__:" ++ toString truth

/-- The first six characters of a text are the prefix. -/
def hasPrefix (marker text : String) : Bool := text.toList.take 6 = marker.toList

/-- The value of a row; the later assignment counts. -/
def decode (text : String) : Value :=
  if hasPrefix "__i__:" text then .int (toI (text.toList.drop 6))
  else if hasPrefix "__b__:" text then .bool (text.toList.drop 6 = "true".toList)
  else .str text

/-! ## Calls -/

/-- The text of the first row with a key. -/
def firstText (rows : List Row) (key : String) : Option String := (rows.find? (·.key = key)).map Row.value

def useCache? (rows : List Row) : Bool := firstText rows "caching?" = some "__b__:true"

namespace State

variable (merge : AppendMerge)

/-- Whether there is caching is looked up at the first call. -/
def cached (state : State) : Bool := state.caching.getD (useCache? state.rows)

/-- Without caching every call begins with an empty hash. -/
def reset (state : State) : State :=
  { state with
    caching := some state.cached
    settings := if state.cached then state.settings else fun _ => none }

def set (state : State) (key : Option Key) (value : Option Value) : Bool × State :=
  let state := state.reset
  match key, value with
  | some key, some value =>
      if (state.settings (.str key.toS)).isSome then (false, state)
      else
        let text := encode value
        (true, { state with
          rows := state.rows ++ [⟨key.toS, text⟩]
          settings :=
            if state.cached then merge.run state.settings (.str key.toS) (.str text) else state.settings })
  | _, _ => (false, state)

def get (state : State) : Option Key → Entry × State
  | none => (.one (.str ""), { state with caching := some state.cached })
  | some key =>
      let state := state.reset
      match state.settings (.str key.toS) with
      | some entry => (entry, state)
      | none =>
          match firstText state.rows key.toS with
          | none => (.one (.str ""), state)
          | some text =>
              let out := decode text
              -- here the key is not turned into a string
              (.one out, { state with
                settings := if state.cached then merge.run state.settings key out else state.settings })

end State

/-! ## Runs -/

inductive Call where
  | set (key : Key) (value : Value)
  | get (key : Key)
  deriving DecidableEq

inductive Answer where
  | set (done : Bool)
  | got (entry : Entry)
  deriving DecidableEq

/-- What a call answers, and the state after it. -/
def call (merge : AppendMerge) (state : State) : Call → Answer × State
  | .set key value =>
      let (done, state) := state.set merge (some key) (some value)
      (.set done, state)
  | .get key =>
      let (entry, state) := state.get merge (some key)
      (.got entry, state)

/-- A process that has not called anything, with the setting for caching that it will find. -/
def State.start (rows : List Row) (caching : Bool) : State := ⟨rows, fun _ => none, some caching⟩

end Mmog.GameSettings

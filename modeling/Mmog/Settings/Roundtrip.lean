import Mmog.Model.Settings

/-!
# Setting and getting

With and without a hash a setting is read as it was first set, and repeated settings
are refused, exactly as long as nothing is set again that is stored, and nothing is
read back that was set to a number, a truth value or a text with one of the prefixes.
-/

namespace Mmog.GameSettings

open Ruby

/-! ## Texts -/

/-- Not a text that begins with one of the prefixes. -/
def Value.Unmarked : Value → Prop
  | .str text => hasPrefix "__i__:" text = false ∧ hasPrefix "__b__:" text = false
  | _ => True

/-- A text without a prefix. -/
def Value.Plain : Value → Prop
  | .str text => hasPrefix "__i__:" text = false ∧ hasPrefix "__b__:" text = false
  | _ => False

theorem decode_append (text : String) : decode ("__i__:" ++ text) = .int (toI text.toList) := by
  have hprefix : hasPrefix "__i__:" ("__i__:" ++ text) = true := by
    rw [hasPrefix, String.toList_append]
    exact decide_eq_true rfl
  rw [decode, if_pos hprefix, String.toList_append]
  rfl

/-- What is written is read again, but for texts with a prefix. -/
theorem decode_encode_iff {value : Value} : decode (encode value) = value ↔ value.Unmarked := by
  cases value with
  | int number => exact iff_of_true ((decode_append _).trans (congrArg Value.int (toI_toString number))) trivial
  | bool truth => exact iff_of_true (by cases truth <;> decide) trivial
  | str text =>
      rw [encode, decode, Value.Unmarked]
      cases hasPrefix "__i__:" text <;> cases hasPrefix "__b__:" text <;> simp

theorem str_encode_iff {value : Value} : Value.str (encode value) = value ↔ ∃ text, value = .str text := by
  cases value <;> simp [encode]

/-- A text that is kept and one that is written are the value again. -/
theorem plain_iff {value : Value} : value.Plain ↔ Value.str (encode value) = value ∧ decode (encode value) = value := by
  rw [str_encode_iff, decode_encode_iff]
  cases value <;> simp [Value.Plain, Value.Unmarked]

theorem firstText_append (rows : List Row) (row : Row) (key : String) : firstText (rows ++ [row]) key =
    (firstText rows key).or (if row.key = key then some row.value else none) := by
  rw [firstText, List.find?_append, firstText, List.find?_singleton]
  cases rows.find? (·.key = key) with
  | some found => rfl
  | none => by_cases heq : row.key = key <;> simp [heq]

/-! ## What the calls answer -/

variable (merge : AppendMerge)

/-- What the table says of a key. -/
def readRow (rows : List Row) (key : String) : Value := ((firstText rows key).map decode).getD (.str "")

section Answers

variable {merge} {state : State} {key : Key} {value : Value}

/-- A process without a hash sets everything, and reads the table. -/
theorem call_set_off (hcaching : state.caching = some false) : call merge state (.set key value) =
    (.set true, ⟨state.rows ++ [⟨key.toS, encode value⟩], fun _ => none, some false⟩) := by
  simp [call, State.set, State.reset, State.cached, hcaching]

theorem call_get_off (hcaching : state.caching = some false) : call merge state (.get key) =
    (.got (.one (readRow state.rows key.toS)), ⟨state.rows, fun _ => none, some false⟩) := by
  simp only [call, State.get, State.reset, State.cached, hcaching, readRow]
  cases firstText state.rows key.toS <;> rfl

theorem call_set_on (hcaching : state.caching = some true) (habsent : state.settings (.str key.toS) = none) :
    call merge state (.set key value) = (.set true, ⟨state.rows ++ [⟨key.toS, encode value⟩],
      merge.run state.settings (.str key.toS) (.str (encode value)), some true⟩) := by
  simp [call, State.set, State.reset, State.cached, hcaching, habsent]

/-- A key in the hash is refused, and nothing changes. -/
theorem call_set_known (hcaching : state.caching = some true) {entry : Entry}
    (hknown : state.settings (.str key.toS) = some entry) :
    call merge state (.set key value) = (.set false, state) := by
  obtain ⟨rows, settings, caching⟩ := state
  cases hcaching
  simp only [call, State.set, State.reset, State.cached, Option.getD_some, if_true, hknown, Option.isSome_some]

theorem call_get_known (hcaching : state.caching = some true) {entry : Entry}
    (hknown : state.settings (.str key.toS) = some entry) :
    call merge state (.get key) = (.got entry, state) := by
  obtain ⟨rows, settings, caching⟩ := state
  cases hcaching
  simp only [call, State.get, State.reset, State.cached, Option.getD_some, if_true, hknown]

theorem call_get_on (hcaching : state.caching = some true) (habsent : state.settings (.str key.toS) = none) :
    call merge state (.get key) = (.got (.one (readRow state.rows key.toS)), ⟨state.rows,
      match firstText state.rows key.toS with
      | none => state.settings
      | some text => merge.run state.settings key (decode text), some true⟩) := by
  obtain ⟨rows, settings, caching⟩ := state
  cases hcaching
  simp only [call, State.get, State.reset, State.cached, Option.getD_some, if_true, habsent, readRow]
  cases firstText rows key.toS <;> rfl

end Answers

/-! ## Laws -/

/-- A state with the value of the first successful `set` for each key. -/
structure Watched where
  state : State
  given : String → Option Value

namespace Watched

def start (rows : List Row) (caching : Bool) : Watched := ⟨.start rows caching, fun _ => none⟩

/-- What a call gives to a key that was not set before. -/
def gives (self : Watched) (answer : Answer) : Call → String → Option Value
  | .set key value =>
      if answer = .set true then fun name => (self.given name).or (if key.toS = name then some value else none)
      else self.given
  | .get _ => self.given

def next (self : Watched) (event : Call) : Watched :=
  ⟨(call merge self.state event).2, self.gives (call merge self.state event).1 event⟩

def step (self : Watched) (event : Call) : Option Watched := some (self.next merge event)

def answer (self : Watched) (event : Call) : Answer := (call merge self.state event).1

/-- A stored key is not set again, and a key that was set is read as it was set. -/
def Lawful (self : Watched) : Call → Prop
  | .set key value => (firstText self.state.rows key.toS).isSome →
      self.answer merge (.set key value) = .set false ∧
        (self.next merge (.set key value)).state.rows = self.state.rows
  | .get key => ∀ value ∈ self.given key.toS, self.answer merge (.get key) = .got (.one value)

/-- No stored key is set, and no key is read that was set to anything but a text without a prefix. -/
def Careful (self : Watched) : Call → Prop
  | .set key _ => firstText self.state.rows key.toS = none
  | .get key => ∀ value ∈ self.given key.toS, value.Plain

/-- The answers to a list of calls. -/
def answers (self : Watched) (calls : List Call) : List Answer :=
  collect (step merge) (fun self event => [self.answer merge event]) self calls

variable {merge}

theorem along_cons {good : Watched → Call → Prop} {self : Watched} {event : Call} {events : List Call} :
    Along (step merge) good self (event :: events) ↔
      good self event ∧ Along (step merge) good (self.next merge event) events := by
  refine and_congr_right fun _ => ⟨fun hrest => hrest _ rfl, fun hrest next hnext => ?_⟩
  cases hnext
  exact hrest

end Watched

/-! ## With and without a hash -/

/-- A process with a hash and one without after the same calls. -/
structure Twins (on off : Watched) : Prop where
  rows : on.state.rows = off.state.rows
  given : on.given = off.given
  withCache : on.state.caching = some true
  without : off.state.caching = some false
  /-- What was set is in the hash as it was written. -/
  kept : ∀ name value, off.given name = some value → on.state.settings (.str name) = some (.one (.str (encode value))) ∧
    firstText off.state.rows name = some (encode value)
  /-- What was only read is in the hash as it was read. -/
  found : ∀ name entry, off.given name = none → on.state.settings (.str name) = some entry →
    (firstText off.state.rows name).isSome ∧ entry = .one (readRow off.state.rows name)

namespace Twins

variable {merge} {on off : Watched}

theorem start (rows : List Row) : Twins (.start rows true) (.start rows false) where
  rows := rfl
  given := rfl
  withCache := rfl
  without := rfl
  kept _ _ hgiven := by cases hgiven
  found _ _ _ hfound := by cases hfound

/-- A key that is not stored is not in the hash. -/
theorem absent (htwins : Twins on off) {name : String} (hstored : firstText off.state.rows name = none) :
    off.given name = none ∧ on.state.settings (.str name) = none := by
  have hgiven : off.given name = none := by
    cases hgiven : off.given name with
    | none => rfl
    | some value => exact absurd ((htwins.kept name value hgiven).2.symm.trans hstored) (Option.some_ne_none _)
  refine ⟨hgiven, ?_⟩
  cases hentry : on.state.settings (.str name) with
  | none => rfl
  | some entry =>
      have hfound := (htwins.found name entry hgiven hentry).1
      rw [hstored] at hfound
      cases hfound

/-! ### Setting -/

variable {key : Key} {value : Value}

theorem set (htwins : Twins on off) (hstored : firstText off.state.rows key.toS = none) :
    on.answer merge (.set key value) = off.answer merge (.set key value) ∧
      Twins (on.next merge (.set key value)) (off.next merge (.set key value)) := by
  obtain ⟨hnew, habsent⟩ := htwins.absent hstored
  have hon : call merge on.state (.set key value) = _ := call_set_on htwins.withCache habsent
  have hoff : call merge off.state (.set key value) = _ := call_set_off htwins.without
  refine ⟨by rw [Watched.answer, Watched.answer, hon, hoff], ?_⟩
  rw [Watched.next, Watched.next, hon, hoff, Watched.gives, if_pos rfl, Watched.gives, if_pos rfl]
  constructor
  case rows => exact congrArg (· ++ [⟨key.toS, encode value⟩]) htwins.rows
  case given => rw [htwins.given]
  case withCache => rfl
  case without => rfl
  case kept =>
    intro name other hgiven
    dsimp only at hgiven ⊢
    rw [firstText_append]
    cases hold : off.given name with
    | some earlier =>
        rw [hold, Option.some_or] at hgiven
        cases hgiven
        obtain ⟨hkept, htext⟩ := htwins.kept name other hold
        have hne : name ≠ key.toS := by
          rintro rfl
          rw [hnew] at hold
          cases hold
        rw [merge.others _ _ _ _ fun heq => hne (Key.str.inj heq), htext]
        exact ⟨hkept, rfl⟩
    | none =>
        rw [hold, Option.none_or, Option.ite_none_right_eq_some] at hgiven
        obtain ⟨rfl, heq⟩ := hgiven
        cases heq
        rw [merge.stores _ _ _ habsent, hstored, if_pos rfl]
        exact ⟨rfl, rfl⟩
  case found =>
    intro name entry hgiven hentry
    dsimp only at hgiven hentry ⊢
    rw [Option.or_eq_none_iff, ite_eq_right_iff] at hgiven
    have hne : name ≠ key.toS := fun heq => nomatch hgiven.2 heq.symm
    rw [merge.others _ _ _ _ fun heq => hne (Key.str.inj heq)] at hentry
    obtain ⟨hsome, hread⟩ := htwins.found name entry hgiven.1 hentry
    have hsame : firstText (off.state.rows ++ [⟨key.toS, encode value⟩]) name = firstText off.state.rows name := by
      rw [firstText_append, if_neg (Ne.symm hne), Option.or_none]
    rw [readRow, hsame]
    exact ⟨hsome, hread⟩

/-! ### Getting -/

/-- What was only read is read as it is stored, from the hash or not. -/
theorem answer_get_of_none (htwins : Twins on off) (hgiven : off.given key.toS = none) :
    on.answer merge (.get key) = .got (.one (readRow off.state.rows key.toS)) := by
  cases hentry : on.state.settings (.str key.toS) with
  | some entry =>
      rw [Watched.answer, call_get_known htwins.withCache hentry, (htwins.found _ entry hgiven hentry).2]
  | none => rw [Watched.answer, call_get_on htwins.withCache hentry, htwins.rows]

theorem answer_get_of_some (htwins : Twins on off) (hgiven : off.given key.toS = some value) :
    on.answer merge (.get key) = .got (.one (.str (encode value))) ∧
      off.answer merge (.get key) = .got (.one (decode (encode value))) := by
  obtain ⟨hkept, htext⟩ := htwins.kept _ value hgiven
  rw [Watched.answer, call_get_known htwins.withCache hkept, Watched.answer, call_get_off htwins.without, readRow, htext]
  exact ⟨rfl, rfl⟩

theorem get (htwins : Twins on off) (key : Key) :
    Twins (on.next merge (.get key)) (off.next merge (.get key)) := by
  have hoff : call merge off.state (.get key) = _ := call_get_off htwins.without
  rw [Watched.next, Watched.next, hoff]
  cases hentry : on.state.settings (.str key.toS) with
  | some entry =>
      rw [call_get_known htwins.withCache hentry]
      exact ⟨htwins.rows, htwins.given, htwins.withCache, rfl, htwins.kept, htwins.found⟩
  | none =>
      rw [call_get_on htwins.withCache hentry, htwins.rows]
      cases htext : firstText off.state.rows key.toS with
      | none => exact ⟨rfl, htwins.given, rfl, rfl, htwins.kept, htwins.found⟩
      | some text =>
          refine ⟨rfl, htwins.given, rfl, rfl, fun name value hgiven => ?_, fun name entry hgiven hfound => ?_⟩
          · obtain ⟨hkept, hfirst⟩ := htwins.kept name value hgiven
            have hne : Key.str name ≠ key := by
              rintro rfl
              cases hkept.symm.trans hentry
            exact ⟨(merge.others _ _ _ _ hne).trans hkept, hfirst⟩
          · by_cases heq : Key.str name = key
            · subst heq
              have hstored := merge.stores on.state.settings (.str name) (decode text) hentry
              cases hstored.symm.trans hfound
              have htext : firstText off.state.rows name = some text := htext
              dsimp only
              rw [readRow, htext]
              exact ⟨rfl, rfl⟩
            · exact htwins.found name entry hgiven ((merge.others _ _ _ _ heq).symm.trans hfound)

/-! ### Calls -/

/-- A careful call is one that both processes answer lawfully. -/
theorem careful_iff (htwins : Twins on off) (event : Call) :
    off.Careful event ↔ on.Lawful merge event ∧ off.Lawful merge event := by
  cases event with
  | set key value =>
      have hoff : off.answer merge (.set key value) = .set true := by
        rw [Watched.answer, call_set_off htwins.without]
      rw [Watched.Careful, Watched.Lawful, Watched.Lawful, hoff, htwins.rows, ← Option.not_isSome_iff_eq_none]
      constructor
      · exact fun hstored => ⟨fun h => absurd h hstored, fun h => absurd h hstored⟩
      · rintro ⟨-, hlawful⟩ hstored
        cases (hlawful hstored).1
  | get key =>
      rw [Watched.Careful, Watched.Lawful, Watched.Lawful, htwins.given]
      cases hgiven : off.given key.toS with
      | none => simp
      | some value =>
          obtain ⟨hon, hoff⟩ := htwins.answer_get_of_some hgiven
          simp only [Option.mem_some, forall_eq']
          rw [hon, hoff, Answer.got.injEq, Entry.one.injEq, Answer.got.injEq, Entry.one.injEq]
          exact plain_iff

/-- Both processes answer a careful call alike, and stay alike. -/
theorem call (htwins : Twins on off) {event : Call} (hcareful : off.Careful event) :
    on.answer merge event = off.answer merge event ∧ Twins (on.next merge event) (off.next merge event) := by
  cases event with
  | set key value => exact htwins.set hcareful
  | get key =>
      refine ⟨?_, htwins.get key⟩
      cases hgiven : off.given key.toS with
      | none =>
          rw [htwins.answer_get_of_none hgiven, Watched.answer, call_get_off htwins.without]
      | some value =>
          obtain ⟨hon, hoff⟩ := htwins.answer_get_of_some hgiven
          obtain ⟨hkept, hread⟩ := plain_iff.mp (hcareful value hgiven)
          rw [hon, hoff, hkept, hread]

theorem lawful_iff (htwins : Twins on off) (calls : List Call) :
    (Along (Watched.step merge) (Watched.Lawful merge) on calls ∧
        Along (Watched.step merge) (Watched.Lawful merge) off calls ∧ on.answers merge calls = off.answers merge calls) ↔
      Along (Watched.step merge) Watched.Careful off calls := by
  induction calls generalizing on off with
  | nil => exact iff_of_true ⟨trivial, trivial, rfl⟩ trivial
  | cons event calls ih =>
      rw [Watched.along_cons, Watched.along_cons, Watched.along_cons, htwins.careful_iff event]
      constructor
      · rintro ⟨⟨hon, honLater⟩, ⟨hoff, hoffLater⟩, hanswers⟩
        obtain ⟨-, hnext⟩ := htwins.call ((htwins.careful_iff event).mpr ⟨hon, hoff⟩)
        exact ⟨⟨hon, hoff⟩, (ih hnext).mp ⟨honLater, hoffLater, (List.cons_eq_cons.mp hanswers).2⟩⟩
      · rintro ⟨⟨hon, hoff⟩, hlater⟩
        obtain ⟨hanswer, hnext⟩ := htwins.call ((htwins.careful_iff event).mpr ⟨hon, hoff⟩)
        obtain ⟨honLater, hoffLater, hanswers⟩ := (ih hnext).mpr hlater
        exact ⟨⟨hon, honLater⟩, ⟨hoff, hoffLater⟩, List.cons_eq_cons.mpr ⟨hanswer, hanswers⟩⟩

end Twins

/-- Every process is lawful, and a hash makes no difference. -/
def Roundtrip (merge : AppendMerge) (rows : List Row) (calls : List Call) : Prop :=
  (∀ caching, Along (Watched.step merge) (Watched.Lawful merge) (.start rows caching) calls) ∧
    Watched.answers merge (.start rows true) calls = Watched.answers merge (.start rows false) calls

theorem roundtrip_iff (merge : AppendMerge) (rows : List Row) (calls : List Call) :
    Roundtrip merge rows calls ↔ Along (Watched.step merge) Watched.Careful (.start rows false) calls := by
  rw [Roundtrip, Bool.forall_bool, and_comm (a := Along _ _ (Watched.start rows false) calls), and_assoc]
  exact (Twins.start rows).lawful_iff calls

/-- A merge that collects the values of a key that is present. -/
def AppendMerge.collecting : AppendMerge where
  run cache key value other :=
    if other = key then
      match cache key with
      | none => some (.one value)
      | some (.one old) => some (.many [old, value])
      | some (.many old) => some (.many (old ++ [value]))
    else cache other
  stores cache key value hnone := by rw [if_pos rfl, hnone]
  others cache key value other hne := if_neg hne

/-- A number is set and read. -/
theorem number_read_as_text : ¬∀ merge rows calls, Roundtrip merge rows calls := by
  intro hall
  have hanswers := (hall .collecting [] [.set (.str "a") (.int 5), .get (.str "a")]).2
  revert hanswers
  decide

end Mmog.GameSettings

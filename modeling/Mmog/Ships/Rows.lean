import Mmog.Model.Fleet

/-!
# Shipfleet rows

What the loops over a hash do to the shipfleet rows of a fleet.  A row is found
by its ship type, and the first of several rows counts, so the rows matter only
through the list of their types and the amount found for each type.
-/

namespace Mmog

open Ruby

namespace Fleet

/-- The ship types a fleet has rows for. -/
def typesOf (rows : List Shipfleet) : List ShipId := rows.map Shipfleet.shipId

/-- `get_amount_of_ship`: the amount of a ship type, 0 without a row. -/
def amountOf (rows : List Shipfleet) (ship : ShipId) : ℤ := (amountOf? rows ship).getD 0

@[simp] theorem amountOf?_nil (ship : ShipId) : amountOf? [] ship = none := rfl

theorem amountOf?_cons (row : Shipfleet) (rows : List Shipfleet) (ship : ShipId) :
    amountOf? (row :: rows) ship =
      if row.shipId = ship then some row.amount else amountOf? rows ship := by
  by_cases heq : row.shipId = ship <;> simp [amountOf?, heq]

theorem amountOf?_eq_none_iff {rows : List Shipfleet} {ship : ShipId} :
    amountOf? rows ship = none ↔ ship ∉ typesOf rows := by
  simp [amountOf?, typesOf]

theorem mem_typesOf_iff {rows : List Shipfleet} {ship : ShipId} :
    ship ∈ typesOf rows ↔ ∃ amount, amountOf? rows ship = some amount := by
  rw [← Option.isSome_iff_exists, ← not_iff_not, Option.not_isSome_iff_eq_none,
    amountOf?_eq_none_iff]

theorem ne_nil_of_typesOf {rows others : List Shipfleet} (htypes : ∀ ship ∈ typesOf rows, ship ∈ typesOf others)
    (hrows : rows ≠ []) : others ≠ [] := by
  obtain ⟨row, rest, rfl⟩ := List.exists_cons_of_ne_nil hrows
  rintro rfl
  exact absurd (htypes row.shipId List.mem_cons_self) List.not_mem_nil

theorem amountOf?_append (rows others : List Shipfleet) (ship : ShipId) :
    amountOf? (rows ++ others) ship = (amountOf? rows ship).or (amountOf? others ship) := by
  induction rows with
  | nil => rfl
  | cons row rows ih =>
      rw [List.cons_append, amountOf?_cons, amountOf?_cons, ih]
      split <;> rfl

/-! ## Changing one amount -/

@[simp] theorem changeAmount_nil (ship : ShipId) (change : ℤ → ℤ) : changeAmount ship change [] = [] := rfl

theorem changeAmount_cons (ship : ShipId) (change : ℤ → ℤ) (row : Shipfleet) (rows : List Shipfleet) :
    changeAmount ship change (row :: rows) =
      if row.shipId = ship then { row with amount := change row.amount } :: rows
      else row :: changeAmount ship change rows := rfl

@[simp] theorem typesOf_changeAmount (ship : ShipId) (change : ℤ → ℤ) (rows : List Shipfleet) :
    typesOf (changeAmount ship change rows) = typesOf rows := by
  induction rows with
  | nil => rfl
  | cons row rows ih =>
      rw [changeAmount_cons]
      split
      · rfl
      · exact congrArg (row.shipId :: ·) ih

theorem amountOf?_changeAmount (ship : ShipId) (change : ℤ → ℤ) (rows : List Shipfleet)
    (other : ShipId) :
    amountOf? (changeAmount ship change rows) other =
      if other = ship then (amountOf? rows other).map change else amountOf? rows other := by
  induction rows with
  | nil => simp
  | cons row rows ih =>
      rw [changeAmount_cons]
      by_cases hrow : row.shipId = ship
      · by_cases hother : other = ship
        · simp [hrow, hother, amountOf?_cons]
        · simp [hrow, hother, amountOf?_cons, Ne.symm hother]
      · by_cases hother : row.shipId = other
        · simp [hother, amountOf?_cons, hother ▸ hrow]
        · simp [hrow, hother, amountOf?_cons, ih]

theorem changeAmount_changeAmount (ship : ShipId) (first second : ℤ → ℤ)
    (rows : List Shipfleet) :
    changeAmount ship second (changeAmount ship first rows) =
      changeAmount ship (second ∘ first) rows := by
  induction rows with
  | nil => rfl
  | cons row rows ih =>
      by_cases hrow : row.shipId = ship <;> simp [changeAmount_cons, hrow, ih]

theorem changeAmount_comm {ship other : ShipId} (hne : ship ≠ other) (first second : ℤ → ℤ)
    (rows : List Shipfleet) :
    changeAmount other second (changeAmount ship first rows) =
      changeAmount ship first (changeAmount other second rows) := by
  induction rows with
  | nil => rfl
  | cons row rows ih =>
      by_cases hship : row.shipId = ship
      · have hother : row.shipId ≠ other := hship ▸ hne
        simp [changeAmount_cons, hship, hne]
      · by_cases hother : row.shipId = other <;> simp [changeAmount_cons, hship, hother, ih, hne.symm]

theorem changeAmount_id {ship : ShipId} {change : ℤ → ℤ} (hid : ∀ n, change n = n)
    (rows : List Shipfleet) : changeAmount ship change rows = rows := by
  induction rows with
  | nil => rfl
  | cons row rows ih =>
      rw [changeAmount_cons, ih, hid]
      split <;> rfl

theorem changeAmount_of_not_mem {ship : ShipId} {rows : List Shipfleet} (change : ℤ → ℤ)
    (hmem : ship ∉ typesOf rows) : changeAmount ship change rows = rows := by
  induction rows with
  | nil => rfl
  | cons row rows ih =>
      rw [typesOf, List.map_cons, List.mem_cons, not_or] at hmem
      rw [changeAmount_cons, if_neg (Ne.symm hmem.1), ih hmem.2]

theorem changeAmount_append_new {ship : ShipId} {rows : List Shipfleet} (value : ℤ)
    (hmem : ship ∉ typesOf rows) :
    changeAmount ship (fun _ => value) (rows ++ [⟨ship, 0⟩]) = rows ++ [⟨ship, value⟩] := by
  induction rows with
  | nil => exact if_pos rfl
  | cons row rows ih =>
      rw [typesOf, List.map_cons, List.mem_cons, not_or] at hmem
      rw [List.cons_append, changeAmount_cons, if_neg (Ne.symm hmem.1), ih hmem.2, List.cons_append]

/-! ## Changing the amounts of all entries -/

/-- Combines the amount of every entry into the row of its key. -/
def changeAll (combine : ℤ → ℤ → ℤ) :
    List (ShipId × ℤ) → List Shipfleet → List Shipfleet
  | [], rows => rows
  | (key, value) :: rest, rows =>
      changeAll combine rest (changeAmount key (fun amount => combine amount value) rows)

theorem changeAll_cons (combine : ℤ → ℤ → ℤ) (entry : ShipId × ℤ) (entries : List (ShipId × ℤ))
    (rows : List Shipfleet) : changeAll combine (entry :: entries) rows =
      changeAll combine entries (changeAmount entry.1 (fun amount => combine amount entry.2) rows) := rfl

@[simp] theorem typesOf_changeAll (combine : ℤ → ℤ → ℤ) (entries : List (ShipId × ℤ))
    (rows : List Shipfleet) : typesOf (changeAll combine entries rows) = typesOf rows := by
  induction entries generalizing rows with
  | nil => rfl
  | cons entry entries ih => rw [changeAll_cons, ih, typesOf_changeAmount]

theorem changeAll_changeAmount {combine : ℤ → ℤ → ℤ} {ship : ShipId} (change : ℤ → ℤ)
    {entries : List (ShipId × ℤ)} (hnew : ship ∉ entries.map Prod.fst) (rows : List Shipfleet) :
    changeAll combine entries (changeAmount ship change rows) =
      changeAmount ship change (changeAll combine entries rows) := by
  induction entries generalizing rows with
  | nil => rfl
  | cons entry entries ih =>
      rw [List.map_cons, List.mem_cons, not_or] at hnew
      rw [changeAll_cons, changeAll_cons, changeAmount_comm hnew.1, ih hnew.2]

theorem amountOf?_changeAll_of_not_mem {combine : ℤ → ℤ → ℤ} {entries : List (ShipId × ℤ)}
    {ship : ShipId} (hnew : ship ∉ entries.map Prod.fst) (rows : List Shipfleet) :
    amountOf? (changeAll combine entries rows) ship = amountOf? rows ship := by
  induction entries generalizing rows with
  | nil => rfl
  | cons entry entries ih =>
      rw [List.map_cons, List.mem_cons, not_or] at hnew
      rw [changeAll_cons, ih hnew.2, amountOf?_changeAmount, if_neg hnew.1]

theorem amountOf?_changeAll_of_mem {combine : ℤ → ℤ → ℤ} {entries : List (ShipId × ℤ)}
    (hnodup : (entries.map Prod.fst).Nodup) {ship : ShipId} {value : ℤ}
    (hmem : (ship, value) ∈ entries) (rows : List Shipfleet) :
    amountOf? (changeAll combine entries rows) ship =
      (amountOf? rows ship).map fun amount => combine amount value := by
  induction entries generalizing rows with
  | nil => cases hmem
  | cons entry entries ih =>
      rw [List.map_cons, List.nodup_cons] at hnodup
      rw [changeAll_cons]
      rcases List.mem_cons.mp hmem with rfl | htail
      · rw [amountOf?_changeAll_of_not_mem hnodup.1, amountOf?_changeAmount, if_pos rfl]
      · have hne : ship ≠ entry.1 := fun heq =>
          hnodup.1 (heq ▸ List.mem_map_of_mem (f := Prod.fst) htail)
        rw [ih hnodup.2 htail, amountOf?_changeAmount, if_neg hne]

/-- Lowering by all entries and raising by them again leaves every row as it was. -/
theorem changeAll_add_sub {entries : List (ShipId × ℤ)} (hnodup : (entries.map Prod.fst).Nodup)
    (rows : List Shipfleet) :
    changeAll (· + ·) entries (changeAll (· - ·) entries rows) = rows := by
  induction entries generalizing rows with
  | nil => rfl
  | cons entry entries ih =>
      rw [List.map_cons, List.nodup_cons] at hnodup
      rw [changeAll_cons, changeAll_cons, changeAll_changeAmount _ hnodup.1, changeAll_changeAmount _ hnodup.1,
        changeAll_changeAmount _ hnodup.1, changeAmount_changeAmount, ih hnodup.2]
      exact changeAmount_id (fun n => sub_add_cancel n entry.2) rows

/-! ## Adding and removing a hash -/

/-- The rows after `add_ships`. -/
def added (shipHash : Hash ShipId ℤ) (rows : List Shipfleet) : List Shipfleet :=
  changeAll (· + ·) shipHash.entries rows ++
    (shipHash.filterKeys fun key => key ∉ typesOf rows).entries.map fun (key, value) => ⟨key, value⟩

/-- The rows after `destroy_ships`. -/
def removed (shipHash : Hash ShipId ℤ) (rows : List Shipfleet) : List Shipfleet :=
  changeAll (· - ·) shipHash.entries rows

theorem amountOf?_map_entries (h : Hash ShipId ℤ) (ship : ShipId) :
    amountOf? (h.entries.map fun (key, value) => ⟨key, value⟩) ship = h.get? ship := by
  obtain ⟨entries, nodup⟩ := h
  induction entries with
  | nil => rfl
  | cons entry entries ih =>
      have htail := ih (List.nodup_cons.mp nodup).2
      rw [List.map_cons, amountOf?_cons, htail]
      by_cases heq : entry.1 = ship <;> simp [Hash.get?, heq]

theorem amountOf?_added (shipHash : Hash ShipId ℤ) (rows : List Shipfleet) (ship : ShipId) :
    amountOf? (added shipHash rows) ship =
      match amountOf? rows ship, shipHash.get? ship with
      | some amount, some value => some (amount + value)
      | some amount, none => some amount
      | none, value => value := by
  rw [added, amountOf?_append, amountOf?_map_entries, Hash.get?_filterKeys]
  cases hrows : amountOf? rows ship with
  | none =>
      have hchanged : amountOf? (changeAll (· + ·) shipHash.entries rows) ship = none := by
        rw [amountOf?_eq_none_iff, typesOf_changeAll, ← amountOf?_eq_none_iff, hrows]
      rw [hchanged]
      simp [amountOf?_eq_none_iff.mp hrows]
  | some amount =>
      cases hget : shipHash.get? ship with
      | none =>
          rw [amountOf?_changeAll_of_not_mem (Hash.get?_eq_none_iff.mp hget), hrows]
          rfl
      | some value =>
          rw [amountOf?_changeAll_of_mem shipHash.nodup (Hash.get?_eq_some_iff.mp hget), hrows]
          rfl

theorem amountOf_added (shipHash : Hash ShipId ℤ) (rows : List Shipfleet) (ship : ShipId) :
    amountOf (added shipHash rows) ship = amountOf rows ship + shipHash.getD ship 0 := by
  rw [amountOf, amountOf?_added, amountOf, Hash.getD]
  cases amountOf? rows ship <;> cases shipHash.get? ship <;> simp

theorem typesOf_added (shipHash : Hash ShipId ℤ) (rows : List Shipfleet) :
    typesOf (added shipHash rows) =
      typesOf rows ++ (shipHash.filterKeys fun key => key ∉ typesOf rows).keys := by
  rw [added, typesOf, List.map_append]
  congr 1
  · exact typesOf_changeAll _ _ _
  · rw [List.map_map]
    rfl

@[simp] theorem typesOf_removed (shipHash : Hash ShipId ℤ) (rows : List Shipfleet) :
    typesOf (removed shipHash rows) = typesOf rows :=
  typesOf_changeAll _ _ _

theorem amountOf?_removed (shipHash : Hash ShipId ℤ) (rows : List Shipfleet) (ship : ShipId) :
    amountOf? (removed shipHash rows) ship =
      (amountOf? rows ship).map fun amount => amount - shipHash.getD ship 0 := by
  cases hget : shipHash.get? ship with
  | none =>
      rw [removed, amountOf?_changeAll_of_not_mem (Hash.get?_eq_none_iff.mp hget), Hash.getD, hget]
      cases amountOf? rows ship <;> simp
  | some value =>
      rw [removed, amountOf?_changeAll_of_mem shipHash.nodup (Hash.get?_eq_some_iff.mp hget),
        Hash.getD, hget]
      rfl

/-- Adding a hash whose keys all have rows. -/
theorem added_eq_changeAll {shipHash : Hash ShipId ℤ} {rows : List Shipfleet}
    (hkeys : ∀ key ∈ shipHash.keys, key ∈ typesOf rows) :
    added shipHash rows = changeAll (· + ·) shipHash.entries rows := by
  have hnone : (shipHash.filterKeys fun key => key ∉ typesOf rows).entries = [] := by
    refine List.filter_eq_nil_iff.mpr fun entry hentry => ?_
    simpa using hkeys entry.1 (List.mem_map_of_mem hentry)
  rw [added, hnone, List.map_nil, List.append_nil]

/-! ## Enough ships -/

theorem enoughShips?_iff {rows : List Shipfleet} {shipHash : Hash ShipId ℤ} :
    enoughShips? rows shipHash = true ↔
      ∀ key value, shipHash.get? key = some value →
        0 ≤ value ∧ ∃ amount, amountOf? rows key = some amount ∧ value ≤ amount := by
  simp only [enoughShips?, List.all_eq_true, decide_eq_true_eq, Bool.decide_and, Bool.and_eq_true,
    Option.any_eq_true, Hash.get?_eq_some_iff, Int.sub_nonneg]
  exact ⟨fun h key value hmem => h (key, value) hmem, fun h entry hmem => h entry.1 entry.2 hmem⟩

theorem hashIsValid?_iff {shipHash : Hash ShipId ℤ} :
    hashIsValid? shipHash = true ↔ ∀ key value, shipHash.get? key = some value → 0 ≤ value := by
  simp only [hashIsValid?, List.all_eq_true, decide_eq_true_eq, Hash.get?_eq_some_iff]
  exact ⟨fun h key value hmem => h (key, value) hmem, fun h entry hmem => h entry.1 entry.2 hmem⟩

theorem hashIsValid?_of_enough {rows : List Shipfleet} {shipHash : Hash ShipId ℤ}
    (henough : enoughShips? rows shipHash = true) : hashIsValid? shipHash = true :=
  hashIsValid?_iff.mpr fun key value hget => (enoughShips?_iff.mp henough key value hget).1

theorem mem_typesOf_of_enough {rows : List Shipfleet} {shipHash : Hash ShipId ℤ}
    (henough : enoughShips? rows shipHash = true) {key : ShipId} (hkey : key ∈ shipHash.keys) :
    key ∈ typesOf rows := by
  obtain ⟨value, hget⟩ := Hash.mem_keys_iff.mp hkey
  obtain ⟨_, amount, hamount, _⟩ := enoughShips?_iff.mp henough key value hget
  exact mem_typesOf_iff.mpr ⟨amount, hamount⟩

/-- Taking ships out and putting the same ships back leaves every row as it was. -/
theorem added_removed {rows : List Shipfleet} {shipHash : Hash ShipId ℤ}
    (hkeys : ∀ key ∈ shipHash.keys, key ∈ typesOf rows) :
    added shipHash (removed shipHash rows) = rows := by
  rw [added_eq_changeAll (by simpa using hkeys)]
  exact changeAll_add_sub shipHash.nodup rows

/-! ## The hash of a fleet's ships -/

/-- What `get_ships` gives for these rows. -/
def shipsOf (rows : List Shipfleet) : Hash ShipId ℤ :=
  (collectShips rows (typesOf rows)).getD Hash.empty

theorem collectShips_eq_foldl {rows : List Shipfleet} {types : List ShipId}
    (htypes : ∀ ship ∈ types, ship ∈ typesOf rows) (ships : Hash ShipId ℤ) :
    types.foldlM (fun ships ship => (amountOf? rows ship).map (ships.insert ship)) ships =
      some (types.foldl (fun ships ship => ships.insert ship (amountOf rows ship)) ships) := by
  induction types generalizing ships with
  | nil => rfl
  | cons ship types ih =>
      obtain ⟨amount, hamount⟩ := mem_typesOf_iff.mp (htypes ship (List.mem_cons_self ..))
      rw [List.foldlM_cons, hamount, List.foldl_cons, amountOf, hamount]
      exact ih (fun other hother => htypes other (List.mem_cons_of_mem _ hother)) _

theorem get?_foldl_insert (value : ShipId → ℤ) (types : List ShipId) (ships : Hash ShipId ℤ)
    (ship : ShipId) :
    (types.foldl (fun ships ship => ships.insert ship (value ship)) ships).get? ship =
      if ship ∈ types then some (value ship) else ships.get? ship := by
  induction types generalizing ships with
  | nil => simp
  | cons head types ih =>
      rw [List.foldl_cons, ih, Hash.get?_insert]
      by_cases htail : ship ∈ types
      · simp [htail]
      · by_cases heq : ship = head <;> simp [htail, heq]

theorem collectShips_types (rows : List Shipfleet) :
    collectShips rows (typesOf rows) = some (shipsOf rows) := by
  rw [shipsOf, collectShips, collectShips_eq_foldl (fun _ hmem => hmem)]
  rfl

@[simp] theorem get?_shipsOf (rows : List Shipfleet) (ship : ShipId) :
    (shipsOf rows).get? ship = amountOf? rows ship := by
  rw [shipsOf, collectShips, collectShips_eq_foldl (fun _ hmem => hmem), Option.getD_some,
    get?_foldl_insert]
  split
  · rename_i hmem
    obtain ⟨amount, hamount⟩ := mem_typesOf_iff.mp hmem
    rw [amountOf, hamount, Option.getD_some]
  · rename_i hmem
    rw [amountOf?_eq_none_iff.mpr hmem, Hash.get?_empty]

@[simp] theorem getD_shipsOf (rows : List Shipfleet) (ship : ShipId) :
    (shipsOf rows).getD ship 0 = amountOf rows ship := by
  rw [Hash.getD, get?_shipsOf, amountOf]

theorem mem_keys_shipsOf {rows : List Shipfleet} {ship : ShipId} :
    ship ∈ (shipsOf rows).keys ↔ ship ∈ typesOf rows := by
  rw [Hash.mem_keys_iff, mem_typesOf_iff]
  simp only [get?_shipsOf]

/-- Rows added to a fleet that had none are found again as the hash that was added. -/
theorem get?_shipsOf_added_nil (shipHash : Hash ShipId ℤ) (ship : ShipId) :
    (shipsOf (added shipHash [])).get? ship = shipHash.get? ship := by
  rw [get?_shipsOf, amountOf?_added, amountOf?_nil]

theorem entries_foldl_insert (value : ShipId → ℤ) {types : List ShipId} (hnodup : types.Nodup)
    {ships : Hash ShipId ℤ} (hnew : ∀ ship ∈ types, ship ∉ ships.keys) :
    (types.foldl (fun ships ship => ships.insert ship (value ship)) ships).entries =
      ships.entries ++ types.map fun ship => (ship, value ship) := by
  induction types generalizing ships with
  | nil => simp
  | cons head types ih =>
      rw [List.nodup_cons] at hnodup
      have hhead : head ∉ ships.keys := hnew _ (List.mem_cons_self ..)
      have hentries : (ships.insert head (value head)).entries = ships.entries ++ [(head, value head)] :=
        if_neg hhead
      rw [List.foldl_cons, ih hnodup.2, hentries, List.append_assoc, List.singleton_append,
        List.map_cons]
      intro ship hship hin
      rw [Hash.keys_insert, if_neg hhead, List.mem_append, List.mem_singleton] at hin
      rcases hin with hin | rfl
      · exact hnew ship (List.mem_cons_of_mem _ hship) hin
      · exact hnodup.1 hship

theorem entries_shipsOf {rows : List Shipfleet} (hone : (typesOf rows).Nodup) :
    (shipsOf rows).entries = (typesOf rows).map fun ship => (ship, amountOf rows ship) := by
  rw [shipsOf, collectShips, collectShips_eq_foldl (fun _ hmem => hmem), Option.getD_some,
    entries_foldl_insert _ hone fun _ _ => List.not_mem_nil]
  rfl

theorem shipsOf_added_nil (shipHash : Hash ShipId ℤ) : shipsOf (added shipHash []) = shipHash := by
  have htypes : typesOf (added shipHash []) = shipHash.keys := by
    rw [typesOf_added]
    simp [typesOf, Hash.keys, Hash.filterKeys]
  refine Hash.ext ?_
  rw [entries_shipsOf (htypes ▸ shipHash.keys_nodup), htypes]
  have hentry : ∀ entry ∈ shipHash.entries,
      (entry.1, amountOf (added shipHash []) entry.1) = entry := by
    intro entry hentry
    rw [amountOf_added, Hash.getD_of_mem hentry]
    simp [amountOf]
  rw [Hash.keys, List.map_map]
  exact (List.map_congr_left hentry).trans (List.map_id _)

/-! ## Rows without negative amounts -/

/-- No amount that is found in the rows is negative. -/
def Valid (rows : List Shipfleet) : Prop := hashIsValid? (shipsOf rows) = true

theorem valid_iff {rows : List Shipfleet} : Valid rows ↔ ∀ ship, 0 ≤ amountOf rows ship := by
  rw [Valid, hashIsValid?_iff]
  simp only [get?_shipsOf]
  constructor
  · intro hvalid ship
    rw [amountOf]
    cases hamount : amountOf? rows ship with
    | none => exact le_rfl
    | some amount => exact hvalid ship amount hamount
  · intro hnonneg ship amount hamount
    have hle := hnonneg ship
    rwa [amountOf, hamount] at hle

theorem valid_nil : Valid [] := rfl

theorem Valid.added {rows : List Shipfleet} (hvalid : Valid rows) {shipHash : Hash ShipId ℤ}
    (hhash : hashIsValid? shipHash = true) : Valid (added shipHash rows) := by
  refine valid_iff.mpr fun ship => ?_
  rw [amountOf_added]
  refine add_nonneg (valid_iff.mp hvalid ship) ?_
  rw [Hash.getD]
  cases hget : shipHash.get? ship with
  | none => exact le_rfl
  | some value => exact hashIsValid?_iff.mp hhash ship value hget

theorem amountOf_removed_of_enough {rows : List Shipfleet} {shipHash : Hash ShipId ℤ}
    (henough : enoughShips? rows shipHash = true) (ship : ShipId) :
    amountOf (removed shipHash rows) ship = amountOf rows ship - shipHash.getD ship 0 := by
  rw [amountOf, amountOf?_removed, amountOf]
  cases hamount : amountOf? rows ship with
  | none =>
      have hkey : ship ∉ shipHash.keys := fun hkey =>
        amountOf?_eq_none_iff.mp hamount (mem_typesOf_of_enough henough hkey)
      rw [Hash.getD_of_not_mem hkey]
      rfl
  | some amount => rfl

theorem Valid.removed {rows : List Shipfleet} (hvalid : Valid rows) {shipHash : Hash ShipId ℤ}
    (henough : enoughShips? rows shipHash = true) : Valid (removed shipHash rows) := by
  refine valid_iff.mpr fun ship => ?_
  rw [amountOf_removed_of_enough henough]
  cases hget : shipHash.get? ship with
  | none =>
      rw [Hash.getD, hget]
      exact (valid_iff.mp hvalid ship).trans_eq (sub_zero _).symm
  | some value =>
      obtain ⟨-, amount, hamount, hle⟩ := enoughShips?_iff.mp henough ship value hget
      rw [Hash.getD, hget, amountOf, hamount]
      exact sub_nonneg.mpr hle

end Fleet

end Mmog

import Mmog.Model.Starport
import Mmog.Shipyard.Payment

/-!
# Available ships

The list of the ships that can be built has a ship once for each level it asks
for that the planet has.  Orders do not look at the list.
-/

namespace Mmog

open Ruby Action Game ShipBuildingQueue

/-! ## Prerequisites -/

section Prerequisites

variable {types : List Buildingtype} {name : BuildingName} {level : ℕ}

/-- Every level that is kept comes from a row. -/
theorem exists_of_mem_getPrerequisites (hmem : (name, level) ∈ (getPrerequisites types).entries) :
    ∃ type ∈ types, type.name = name ∧ type.level = level := by
  induction types using List.reverseRecOn with
  | nil => cases hmem
  | append_singleton types last ih =>
      rw [getPrerequisites, List.foldl_append] at hmem
      rcases Hash.mem_entries_insert hmem with hold | hnew
      · obtain ⟨type, htype, hboth⟩ := ih hold
        exact ⟨type, List.mem_append_left _ htype, hboth⟩
      · obtain ⟨rfl, rfl⟩ := Prod.mk.inj hnew
        exact ⟨last, List.mem_append_right _ List.mem_cons_self, rfl, rfl⟩

theorem mem_keys_getPrerequisites : name ∈ (getPrerequisites types).keys ↔ ∃ type ∈ types, type.name = name := by
  induction types using List.reverseRecOn with
  | nil => exact iff_of_false nofun nofun
  | append_singleton types last ih =>
      have hkeys : (getPrerequisites (types ++ [last])).keys = ((getPrerequisites types).insert last.name last.level).keys := by
        rw [getPrerequisites, List.foldl_append]
        rfl
      have hinsert : name ∈ ((getPrerequisites types).insert last.name last.level).keys ↔
          name ∈ (getPrerequisites types).keys ∨ name = last.name := by
        rw [Hash.keys_insert]
        split
        · exact (or_iff_left_of_imp fun heq => heq ▸ ‹_›).symm
        · rw [List.mem_append, List.mem_singleton]
      rw [hkeys, hinsert, ih]
      simp only [List.mem_append, List.mem_singleton, or_and_right, exists_or, exists_eq_left]
      exact or_congr_right eq_comm

/-- All rows are about one building. -/
def OneName (types : List Buildingtype) : Prop := ∃ name, types ≠ [] ∧ ∀ type ∈ types, type.name = name

theorem length_getPrerequisites_le (hone : OneName types) : (getPrerequisites types).entries.length ≤ 1 := by
  obtain ⟨name, -, hall⟩ := hone
  have hsub : (getPrerequisites types).keys ⊆ [name] := by
    intro key hkey
    obtain ⟨type, htype, rfl⟩ := mem_keys_getPrerequisites.mp hkey
    exact List.mem_singleton.mpr (hall type htype)
  have hle := ((getPrerequisites types).keys_nodup.subperm hsub).length_le
  rwa [Hash.keys, List.length_map] at hle

theorem oneName_of_length_le (hne : types ≠ []) (hlength : (getPrerequisites types).entries.length ≤ 1) :
    OneName types := by
  obtain ⟨first, hfirst⟩ := List.exists_mem_of_ne_nil _ hne
  refine ⟨first.name, hne, fun type htype => ?_⟩
  have hkeys : (getPrerequisites types).keys.length ≤ 1 := by rwa [Hash.keys, List.length_map]
  have hmem := mem_keys_getPrerequisites.mpr ⟨type, htype, rfl⟩
  have hmemFirst := mem_keys_getPrerequisites.mpr ⟨first, hfirst, rfl⟩
  generalize (getPrerequisites types).keys = keys at hkeys hmem hmemFirst
  cases keys with
  | nil => exact absurd hmem List.not_mem_nil
  | cons key rest =>
      obtain rfl : rest = [] := List.eq_nil_of_length_eq_zero (Nat.le_zero.mp (Nat.le_of_succ_le_succ hkeys))
      rw [List.mem_singleton.mp hmem, List.mem_singleton.mp hmemFirst]

end Prerequisites

/-! ## The list -/

namespace ShipsHelper

variable (w : World) (prerequisites : Prerequisites) (db : Db) (planet : PlanetId)

/-- The planet has the building for a level that is kept. -/
def has (entry : BuildingName × ℕ) : Bool := entry.2 ≤ Planet.buildingsToHash w db.buildings planet entry.1

/-- The planet has every building that a ship asks for. -/
def Buildable (ship : ShipId) : Prop :=
  ∀ type ∈ prerequisites ship, type.level ≤ Planet.buildingsToHash w db.buildings planet type.name

/-- The list holds the ships that can be built, each once. -/
def ListsBuildable : Prop :=
  (getAvailableShips w prerequisites db planet).Nodup ∧
    ∀ ship, ship ∈ getAvailableShips w prerequisites db planet ↔
      ship ∈ w.shipIds ∧ Buildable w prerequisites db planet ship

/-- A ship that can be built asks for one building, and any other one for nothing that the planet has. -/
def SimplyMet (ship : ShipId) : Prop :=
  (Buildable w prerequisites db planet ship ∧ OneName (prerequisites ship)) ∨
    (¬Buildable w prerequisites db planet ship ∧
      ∀ entry ∈ (getPrerequisites (prerequisites ship)).entries, ¬has w db planet entry)

/-- Copies of the elements of a list without repetitions do not repeat if there is at most one of each. -/
theorem nodup_flatMap_replicate {α : Type} {l : List α} (hnodup : l.Nodup) (copies : α → ℕ) :
    (l.flatMap fun a => List.replicate (copies a) a).Nodup ↔ ∀ a ∈ l, copies a ≤ 1 := by
  rw [List.nodup_flatMap]
  simp only [List.nodup_replicate]
  refine and_iff_left (hnodup.imp fun hne a ha hb => hne ?_)
  rw [← List.eq_of_mem_replicate ha, ← List.eq_of_mem_replicate hb]

variable {w prerequisites db planet}

theorem getAvailableShips_eq : getAvailableShips w prerequisites db planet = w.shipIds.flatMap fun ship =>
    List.replicate ((getPrerequisites (prerequisites ship)).entries.countP (has w db planet)) ship := by
  refine List.flatMap_congr fun ship _ => ?_
  rw [List.map_const', List.countP_eq_length_filter]
  rfl

theorem mem_getAvailableShips {ship : ShipId} : ship ∈ getAvailableShips w prerequisites db planet ↔
    ship ∈ w.shipIds ∧ ∃ entry ∈ (getPrerequisites (prerequisites ship)).entries, has w db planet entry := by
  rw [getAvailableShips_eq, List.mem_flatMap]
  simp only [List.mem_replicate, ← List.countP_pos_iff, Nat.pos_iff_ne_zero]
  constructor
  · rintro ⟨other, hother, hcount, rfl⟩
    exact ⟨hother, hcount⟩
  · rintro ⟨hship, hcount⟩
    exact ⟨ship, hship, hcount, rfl⟩

theorem has_of_buildable {ship : ShipId} (hbuildable : Buildable w prerequisites db planet ship) :
    ∀ entry ∈ (getPrerequisites (prerequisites ship)).entries, has w db planet entry := by
  rintro ⟨name, level⟩ hentry
  obtain ⟨type, htype, rfl, rfl⟩ := exists_of_mem_getPrerequisites hentry
  exact decide_eq_true (hbuildable type htype)

theorem listsBuildable_iff :
    ListsBuildable w prerequisites db planet ↔ ∀ ship ∈ w.shipIds, SimplyMet w prerequisites db planet ship := by
  have hnodup : (getAvailableShips w prerequisites db planet).Nodup ↔
      ∀ ship ∈ w.shipIds, (getPrerequisites (prerequisites ship)).entries.countP (has w db planet) ≤ 1 := by
    rw [getAvailableShips_eq]
    exact nodup_flatMap_replicate w.shipIds_nodup _
  constructor
  · rintro ⟨honce, hlists⟩ ship hship
    by_cases hbuildable : Buildable w prerequisites db planet ship
    · obtain ⟨-, ⟨name, level⟩, hentry, -⟩ := mem_getAvailableShips.mp ((hlists ship).mpr ⟨hship, hbuildable⟩)
      obtain ⟨type, htype, -⟩ := exists_of_mem_getPrerequisites hentry
      have hcount := hnodup.mp honce ship hship
      rw [List.countP_eq_length.mpr (has_of_buildable hbuildable)] at hcount
      exact .inl ⟨hbuildable, oneName_of_length_le (List.ne_nil_of_mem htype) hcount⟩
    · refine .inr ⟨hbuildable, fun entry hentry hhas => hbuildable ?_⟩
      exact ((hlists ship).mp (mem_getAvailableShips.mpr ⟨hship, entry, hentry, hhas⟩)).2
  · intro hsimple
    refine ⟨hnodup.mpr fun ship hship => ?_, fun ship => mem_getAvailableShips.trans (and_congr_right fun hship => ?_)⟩
    · rcases hsimple ship hship with ⟨-, hone⟩ | ⟨-, hnothing⟩
      · exact List.countP_le_length.trans (length_getPrerequisites_le hone)
      · rw [List.countP_eq_zero.mpr hnothing]
        exact Nat.zero_le 1
    · rcases hsimple ship hship with ⟨hbuildable, name, hne, hall⟩ | ⟨hnot, hnothing⟩
      · refine iff_of_true ?_ hbuildable
        obtain ⟨type, htype⟩ := List.exists_mem_of_ne_nil _ hne
        obtain ⟨level, hget⟩ := Hash.mem_keys_iff.mp (mem_keys_getPrerequisites.mpr ⟨type, htype, rfl⟩)
        have hentry := Hash.get?_eq_some_iff.mp hget
        exact ⟨_, hentry, has_of_buildable hbuildable _ hentry⟩
      · exact iff_of_false (fun ⟨entry, hentry, hhas⟩ => hnothing entry hentry hhas) hnot

/-- As long as every ship asks for one building the list is right. -/
theorem listsBuildable_of_single (hsingle : ∀ ship ∈ w.shipIds, ∃ type, prerequisites ship = [type]) :
    ListsBuildable w prerequisites db planet := by
  refine listsBuildable_iff.mpr fun ship hship => ?_
  obtain ⟨type, htype⟩ := hsingle ship hship
  by_cases hbuildable : Buildable w prerequisites db planet ship
  · refine .inl ⟨hbuildable, type.name, ?_, ?_⟩
    · rw [htype]
      exact List.cons_ne_nil type []
    · rw [htype]
      exact List.forall_mem_singleton.mpr rfl
  · refine .inr ⟨hbuildable, fun entry hentry hhas => hbuildable ?_⟩
    rw [htype] at hentry
    obtain rfl := List.mem_singleton.mp hentry
    rw [Buildable, htype]
    exact List.forall_mem_singleton.mpr (of_decide_eq_true hhas)

end ShipsHelper

/-! ## Orders -/

namespace ShipBuildingQueue

variable {rules : Rules} {planet : PlanetId} {game : Game}

theorem mem_entriesFor_ship {ship other : ShipId} {n : ℕ} {plus : ℤ} {qid : ℕ} :
    (∃ q ∈ entriesFor rules ship planet n plus qid, q.ship = other) ↔ 0 < n ∧ other = ship := by
  induction n generalizing plus qid with
  | zero => exact iff_of_false nofun fun hboth => absurd hboth.1 (lt_irrefl 0)
  | succ n ih =>
      rw [entriesFor]
      simp only [List.mem_cons, or_and_right, exists_or, exists_eq_left, ih]
      exact ⟨fun heither => ⟨Nat.succ_pos n, heither.elim Eq.symm And.right⟩, fun hboth => .inl hboth.2.symm⟩

/-- The ships that are queued are those that more than none of is ordered. -/
theorem mem_ordered_ship {ships : List (ShipId × ℤ)} {ship : ShipId} :
    (∃ q ∈ ordered rules planet game ships, q.ship = ship) ↔ ∃ value, (ship, value) ∈ ships ∧ 0 < value := by
  induction ships generalizing game with
  | nil => exact iff_of_false nofun nofun
  | cons entry rest ih =>
      obtain ⟨first, value⟩ := entry
      unfold ordered
      simp only [List.mem_append, or_and_right, exists_or, mem_entriesFor_ship, ih, List.mem_cons, Prod.mk.injEq,
        Int.pos_iff_toNat_pos]
      refine or_congr_left ⟨?_, ?_⟩
      · rintro ⟨hpos, rfl⟩
        exact ⟨value, ⟨rfl, rfl⟩, hpos⟩
      · rintro ⟨_, ⟨rfl, rfl⟩, hpos⟩
        exact ⟨hpos, rfl⟩

theorem newEntries_of_same {next : Game} (hqueue : next.queue = game.queue) : newEntries game next = [] := by
  rw [newEntries, hqueue, List.map_eq_nil_iff, List.filter_eq_nil_iff]
  intro row hrow hle
  exact (Table.lt_nextId (Table.mem_rows.mp hrow)).not_ge (of_decide_eq_true hle)

variable (rules planet game) in
/-- The entries of an order, if it can be paid. -/
theorem newEntries_insert (ships : Hash ShipId ℤ) (ship : ShipId) :
    (∃ q ∈ newEntries game (after ((insert rules ships planet).run game)), q.ship = ship) ↔
      Affordable rules ships planet game ∧ ∃ value, (ship, value) ∈ ships.entries ∧ 0 < value := by
  classical
  rw [insert_apply]
  by_cases haffordable : Affordable rules ships planet game
  · rw [if_pos haffordable, after_ok, placed_eq_append, and_iff_right haffordable, ← mem_ordered_ship]
    have hnew := filter_rows_foldl_create game.queue
      (ordered rules planet (game.setDb (game.db.withHoldings planet (left rules ships planet game))) ships.entries)
    exact exists_congr fun q => and_congr_left fun _ => (congrArg (q ∈ ·) hnew).to_iff
  · have hnone : newEntries game (game.setDb (game.db.withHoldings planet (givenBack rules ships planet game))) = [] :=
      newEntries_of_same rfl
    rw [if_neg haffordable, after_ok, hnone]
    exact iff_of_false nofun fun hboth => haffordable hboth.1

end ShipBuildingQueue

namespace StarportController

open ShipsHelper

variable {rules : Rules} {planet : PlanetId} {game : Game} {params : List (ShipId × Option ℤ)}

variable (rules planet game params) in
/-- Every entry that the request creates is for a ship that can be built and is in the list. -/
def QueuesAvailable (prerequisites : Prerequisites) : Prop :=
  ∀ q ∈ newEntries game (after ((build rules planet params).run game)),
    q.ship ∈ getAvailableShips rules.toWorld prerequisites game.db planet

/-- An order is made of ships that there are. -/
theorem mem_shipIds_of_shipArray {w : World} {ships : Hash ShipId ℤ} (hships : shipArray w params = .ok ships)
    {ship : ShipId} {value : ℤ} (hmem : (ship, value) ∈ ships.entries) : ship ∈ w.shipIds := by
  have hkept : ∀ entry ∈ ships.entries, entry.1 ∈ w.shipIds := by
    refine foldlM_keeps (φ := fun array : Hash ShipId ℤ => ∀ entry ∈ array.entries, entry.1 ∈ w.shipIds) ?_ params
      (List.forall_mem_nil _) hships
    rintro array ⟨first, amount⟩ next harray hnext
    cases amount with
    | none =>
        cases hnext
        exact harray
    | some amount =>
        by_cases hfirst : first ∈ w.shipIds
        · simp only [hfirst, if_true] at hnext
          cases hnext
          intro entry hentry
          exact (Hash.mem_entries_insert hentry).elim (harray entry) fun hnew => hnew ▸ hfirst
        · simp only [hfirst, if_false] at hnext
          cases hnext
  exact hkept (ship, value) hmem

/-- The list is right and orders keep to it exactly if every ship is simply met and an order that can be paid
is for ships that can be built. -/
theorem builds_available_iff (rules : Rules) (prerequisites : Prerequisites) (planet : PlanetId) (game : Game)
    (params : List (ShipId × Option ℤ)) :
    (ListsBuildable rules.toWorld prerequisites game.db planet ∧ QueuesAvailable rules planet game params prerequisites) ↔
      (∀ ship ∈ rules.shipIds, SimplyMet rules.toWorld prerequisites game.db planet ship) ∧
        ∀ ships, shipArray rules.toWorld params = .ok ships → Affordable rules ships planet game →
          ∀ ship value, (ship, value) ∈ ships.entries → 0 < value →
            Buildable rules.toWorld prerequisites game.db planet ship := by
  rw [← listsBuildable_iff]
  refine and_congr_right fun hlists => ?_
  unfold QueuesAvailable build
  cases hships : shipArray rules.toWorld params with
  | error err =>
      have hnone : newEntries game (after ((throw err : GameAct Bool).run game)) = [] := newEntries_of_same rfl
      exact iff_of_true (hnone ▸ List.forall_mem_nil _) nofun
  | ok ships =>
      constructor
      · rintro hqueued found hfound haffordable ship value hmem hpos
        cases hfound
        obtain ⟨q, hq, rfl⟩ := (newEntries_insert rules planet game ships ship).mpr ⟨haffordable, value, hmem, hpos⟩
        exact ((hlists.2 q.ship).mp (hqueued q hq)).2
      · intro hbuildable q hq
        obtain ⟨haffordable, value, hmem, hpos⟩ := (newEntries_insert rules planet game ships q.ship).mp ⟨q, hq, rfl⟩
        exact (hlists.2 q.ship).mpr ⟨mem_shipIds_of_shipArray hships hmem,
          hbuildable ships rfl haffordable q.ship value hmem hpos⟩

/-- The starport levels of the seeds. -/
def seededPrerequisites : Prerequisites := fun ship =>
  let starport (level : ℕ) : Buildingtype := ⟨100 + level, .starport, level, 0, 0, 0, 0, 0, []⟩
  match ship with
  | 2 => [starport 2]
  | 4 => [starport 3]
  | 5 => [starport 4]
  | 6 => [starport 5]
  | 9 => [starport 2]
  | 10 => [starport 3]
  | _ => [starport 1]

/-- A planet without a starport builds a cargo ship, which its list does not have. -/
theorem unavailable_ship_queued : ¬∀ (rules : Rules) (prerequisites : Prerequisites) (planet : PlanetId) (game : Game)
    (params : List (ShipId × Option ℤ)), ListsBuildable rules.toWorld prerequisites game.db planet ∧
      QueuesAvailable rules planet game params prerequisites := by
  intro hall
  obtain ⟨-, hqueued⟩ := hall Seeds.rules seededPrerequisites 1 (Seeds.game Seeds.start) [(1, some 1)]
  have hnew : (newEntries (Seeds.game Seeds.start) (after ((build Seeds.rules 1 [(1, some 1)]).run
      (Seeds.game Seeds.start)))).any fun q => decide (q.ship = 1) := by decide
  obtain ⟨q, hq, hship⟩ := List.any_eq_true.mp hnew
  have hlisted : 1 ∉ getAvailableShips Seeds.rules.toWorld seededPrerequisites (Seeds.game Seeds.start).db 1 := by
    decide
  exact hlisted (of_decide_eq_true hship ▸ hqueued q hq)

end StarportController

end Mmog

import Mmog.Game.Build

/-!
# Counting buildings

How many buildings of one name a planet has, and how many jobs are pending that
would build one of level 1.  A job for a higher level puts a building up and
changes neither number.
-/

namespace Mmog

open Ruby Action Game

namespace Rules

variable (rules : Rules) (p : PlanetId) (name : BuildingName)

/-- The id is that of a building type of this name. -/
def isNamed (id : ℕ) : Bool := (rules.buildingtype id).any fun type => type.name = name

/-- The id is that of a building type of this name and level 1. -/
def isFirst (id : ℕ) : Bool := (rules.buildingtype id).any fun type => type.name = name ∧ type.level = 1

/-- The building is one of the planet's of this name. -/
def isRow (building : Building) : Bool := building.planet = p ∧ rules.isNamed name building.buildingtype

/-- The job is for the planet's first building of this name. -/
def starts : Job → Bool
  | .buildBuildings q id => q = p ∧ rules.isFirst name id
  | _ => false

end Rules

namespace Db

variable (rules : Rules) (db : Db) (p : PlanetId) (name : BuildingName)

/-- The number of the planet's buildings of this name. -/
def rows : ℕ := db.buildings.countP (rules.isRow p name)

/-- The number of pending jobs for the planet's first building of this name. -/
def firsts : ℕ := db.jobs.countP (rules.starts p name)

variable {rules db p name}

theorem firsts_enqueue (timestamp : ℤ) (job : Job) :
    firsts rules { db with delayed := db.delayed ++ [⟨timestamp, job⟩] } p name =
      firsts rules db p name + if rules.starts p name job then 1 else 0 := by
  simp only [firsts, jobs, List.map_append, List.map_singleton, List.countP_append, List.countP_singleton]
  omega

theorem firsts_remove_le (job : Job) :
    firsts rules { db with delayed := db.delayed.filter fun entry => entry.job ≠ job } p name ≤
      firsts rules db p name := by
  have hsublist := (List.filter_sublist (p := fun entry : Enqueued => decide (entry.job ≠ job))
    (l := db.delayed)).map Enqueued.job
  exact (hsublist.append_right db.ready).countP_le

theorem firsts_schedule {index : ℕ} {entry : Enqueued} (hget : db.delayed[index]? = some entry) :
    firsts rules { db with delayed := db.delayed.eraseIdx index, ready := db.ready ++ [entry.job] } p name =
      firsts rules db p name :=
  (jobs_schedule hget).countP_eq _

theorem firsts_take {index : ℕ} {job : Job} (hget : db.ready[index]? = some job) :
    firsts rules db p name = firsts rules { db with ready := db.ready.eraseIdx index } p name +
      if rules.starts p name job then 1 else 0 := by
  rw [firsts, (jobs_take hget).countP_eq, List.countP_cons]
  rfl

end Db

namespace Planet

variable {rules : Rules} {p q : PlanetId} {name : BuildingName} {buildMe : Buildingtype}

/-! ## Finished buildings -/

theorem isNamed_id (hmem : buildMe ∈ rules.buildingtypes) :
    rules.isNamed name buildMe.id = decide (buildMe.name = name) := by
  rw [Rules.isNamed, rules.buildingtype_of_mem hmem]
  rfl

/-- An upgrade keeps the name of the building. -/
theorem upgradeFirst_rows (hmem : buildMe ∈ rules.buildingtypes) {old new : List Building}
    (hupgrade : upgradeFirst rules q buildMe old = .ok (some new)) :
    new.countP (rules.isRow p name) = old.countP (rules.isRow p name) := by
  induction old generalizing new with
  | nil => cases hupgrade
  | cons building rest ih =>
      have hskip : (upgradeFirst rules q buildMe rest).map (fun found => found.map (building :: ·)) =
          .ok (some new) → new.countP (rules.isRow p name) = (building :: rest).countP (rules.isRow p name) := by
        intro hmap
        cases hrest : upgradeFirst rules q buildMe rest with
        | error err =>
            rw [hrest] at hmap
            cases hmap
        | ok found =>
            rw [hrest] at hmap
            obtain ⟨others, rfl, rfl⟩ := Option.map_eq_some_iff.mp (Except.ok.inj hmap)
            rw [List.countP_cons, List.countP_cons, ih hrest]
      rw [upgradeFirst] at hupgrade
      split at hupgrade
      · split at hupgrade
        · cases hupgrade
        · rename_i type htype
          split at hupgrade
          · rename_i hlevel
            cases hupgrade
            have hsame : rules.isRow p name { building with buildingtype := buildMe.id } =
                rules.isRow p name building := by
              unfold Rules.isRow
              dsimp only
              rw [isNamed_id hmem, Rules.isNamed, htype, Option.any_some, hlevel.1]
            rw [List.countP_cons, List.countP_cons, hsame]
          · exact hskip hupgrade
      · exact hskip hupgrade

/-- A finished building of level 1 may be one more row; any other is none. -/
theorem built_rows (hmem : buildMe ∈ rules.buildingtypes) {old new : List Building}
    (hbuilt : Built rules q buildMe old new) :
    new.countP (rules.isRow p name) ≤ old.countP (rules.isRow p name) +
      if rules.starts p name (.buildBuildings q buildMe.id) then 1 else 0 := by
  cases hbuilt with
  | upgraded hupgrade =>
      rw [upgradeFirst_rows hmem hupgrade]
      exact Nat.le_add_right _ _
  | added hnone hlevel =>
      have hrow : rules.isRow p name ⟨q, buildMe.id⟩ = rules.starts p name (.buildBuildings q buildMe.id) := by
        simp [Rules.isRow, Rules.starts, Rules.isNamed, Rules.isFirst, rules.buildingtype_of_mem hmem, hlevel]
      rw [List.countP_append, List.countP_singleton, hrow]

/-! ## Orders -/

theorem typeAt_spec {w : World} {level : ℕ} {type : Buildingtype} (htype : typeAt w name level = some type) :
    type ∈ w.buildingtypes ∧ type.name = name ∧ type.level = level := by
  refine ⟨List.mem_of_find?_eq_some htype, ?_⟩
  have htest := List.find?_some htype
  exact of_decide_eq_true htest

/-- What may be ordered is the type of level 1 if the planet has no building of the name, and
otherwise one level above a type there is. -/
theorem buildable_cases {w : World} {db : Db} (hbuildable : buildable w db p name = some buildMe) :
    buildMe ∈ w.buildingtypes ∧ buildMe.name = name ∧
      ((buildMe.level = 1 ∧ ∀ building ∈ db.buildings, building.planet = p →
          ∀ type ∈ w.buildingtypes, type.id = building.buildingtype → type.name ≠ name) ∨
        ∃ old ∈ w.buildingtypes, buildMe.level = old.level + 1) := by
  unfold buildable at hbuildable
  dsimp only at hbuildable
  split at hbuildable
  · cases hbuildable
  split at hbuildable
  · cases hbuildable
  split at hbuildable
  · rename_i hnone
    split at hbuildable
    · obtain ⟨hmem, hname, hlevel⟩ := typeAt_spec hbuildable
      refine ⟨hmem, hname, Or.inl ⟨hlevel, fun building hbuilding hplanet type htype hid hsame => ?_⟩⟩
      have hfind := List.findSome?_eq_none_iff.mp hnone building
        (List.mem_filter.mpr ⟨hbuilding, decide_eq_true hplanet⟩)
      exact List.find?_eq_none.mp hfind type htype (decide_eq_true ⟨hid, hsame⟩)
    · cases hbuildable
  · rename_i old hold
    split at hbuildable
    · obtain ⟨hmem, hname, hlevel⟩ := typeAt_spec hbuildable
      obtain ⟨building, -, hfind⟩ := List.exists_of_findSome?_eq_some hold
      exact ⟨hmem, hname, Or.inr ⟨old, List.mem_of_find?_eq_some hfind, hlevel⟩⟩
    · cases hbuildable

/-- A planet that may order the first building of a name has none of it. -/
theorem rows_of_buildable {db : Db} (hbuildable : buildable rules.toWorld db p name = some buildMe)
    (hlevel : buildMe.level = 1) : db.rows rules p name = 0 := by
  obtain ⟨-, -, ⟨-, hnone⟩ | ⟨old, hold, hnext⟩⟩ := buildable_cases hbuildable
  · rw [Db.rows, List.countP_eq_zero]
    intro building hbuilding hrow
    obtain ⟨hplanet, hnamed⟩ := of_decide_eq_true hrow
    obtain ⟨type, htype, hname⟩ := (Option.any_eq_true _ _).mp hnamed
    have hid := List.find?_some htype
    exact hnone building hbuilding hplanet type (List.mem_of_find?_eq_some htype) (of_decide_eq_true hid)
      (of_decide_eq_true hname)
  · have hone := rules.one_le_level old hold
    omega

end Planet

end Mmog

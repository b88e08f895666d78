import Mmog.Buildings.Unique

/-!
# What the page of a planet offers

The page lists the buildings that may be put up or upgraded and shows the costs
of the next level beside a button; an order looks its building up on its own.
With one building of each name the two agree, but for crystal mines.
-/

namespace Mmog

open Ruby Action Game

/-- A type is looked up by its id alone, whatever name is asked for as well. -/
theorem Rules.find_named (rules : Rules) (id : ℕ) (name : BuildingName) :
    (rules.buildingtypes.find? fun type => type.id = id ∧ type.name = name) =
      (rules.buildingtype id).filter (·.name = name) := by
  ext type
  rw [Option.filter_eq_some_iff, decide_eq_true_eq]
  constructor
  · intro hfind
    have htest := List.find?_some hfind
    obtain ⟨rfl, hname⟩ := of_decide_eq_true htest
    exact ⟨rules.buildingtype_of_mem (List.mem_of_find?_eq_some hfind), hname⟩
  · rintro ⟨hid, hname⟩
    have htest := List.find?_some hid
    have heq : type.id = id := of_decide_eq_true htest
    have hmem := List.mem_of_find?_eq_some hid
    cases hfind : rules.buildingtypes.find? fun type => type.id = id ∧ type.name = name with
    | none => exact absurd (decide_eq_true ⟨heq, hname⟩) (List.find?_eq_none.mp hfind type hmem)
    | some found =>
        have hfound := List.find?_some hfind
        obtain ⟨rfl, -⟩ := of_decide_eq_true hfound
        rw [← hid, rules.buildingtype_of_mem (List.mem_of_find?_eq_some hfind)]

namespace Planet

variable {rules : Rules} {p : PlanetId} {name : BuildingName} {db : Db}

/-- The types of the planet's buildings of a name. -/
def named (w : World) (buildings : List Building) (p : PlanetId) (name : BuildingName) :
    List Buildingtype :=
  (typesOf w buildings p).filter (·.name = name)

/-- The level a page shows is that of the last building of the name. -/
theorem buildingsToHash_eq (w : World) (buildings : List Building) (p : PlanetId) (name : BuildingName) :
    buildingsToHash w buildings p name = ((named w buildings p name).getLast?.map Buildingtype.level).getD 0 :=
  rfl

theorem named_cons (rules : Rules) (building : Building) (buildings : List Building) (p : PlanetId)
    (name : BuildingName) :
    named rules.toWorld (building :: buildings) p name =
      (if building.planet = p then (rules.buildingtype building.buildingtype).filter (·.name = name)
        else none).toList ++ named rules.toWorld buildings p name := by
  rw [named, typesOf, List.filterMap_cons]
  split_ifs with hplanet
  · rw [Rules.buildingtype]
    cases rules.buildingtypes.find? (·.id = building.buildingtype) with
    | none => rfl
    | some type =>
        dsimp only
        rw [List.filter_cons, Option.filter_some]
        split_ifs <;> rfl
  · rfl

theorem length_named (rules : Rules) (buildings : List Building) (p : PlanetId) (name : BuildingName) :
    (named rules.toWorld buildings p name).length = buildings.countP (rules.isRow p name) := by
  induction buildings with
  | nil => rfl
  | cons building rest ih =>
      rw [named_cons, List.length_append, List.countP_cons, ih, Rules.isRow, Rules.isNamed]
      cases rules.buildingtype building.buildingtype with
      | none => simp
      | some type =>
          by_cases hplanet : building.planet = p <;> by_cases hname : type.name = name <;>
            simp [hplanet, hname, Option.filter_some, add_comm]

/-- An order looks for the first building of the name. -/
theorem findSome_named (rules : Rules) (buildings : List Building) (p : PlanetId) (name : BuildingName) :
    ((buildings.filter (·.planet = p)).findSome? fun building =>
      rules.buildingtypes.find? fun type => type.id = building.buildingtype ∧ type.name = name) =
      (named rules.toWorld buildings p name).head? := by
  induction buildings with
  | nil => rfl
  | cons building rest ih =>
      rw [named_cons, List.filter_cons]
      by_cases hplanet : building.planet = p
      · rw [if_pos (decide_eq_true hplanet), if_pos hplanet, List.findSome?_cons, rules.find_named, ih]
        cases (rules.buildingtype building.buildingtype).filter (·.name = name) <;> rfl
      · rw [if_neg (by simpa using hplanet), if_neg hplanet, ih]
        rfl

theorem mem_upgradable {w : World} {buildings : List Building} :
    name ∈ upgradableBuildingsToHash w buildings p ↔
      (buildingsToHash w buildings p name = 0 ∧ verifiesNewBuilding? w buildings p name = true) ∨
        ∃ type ∈ named w buildings p name, verifiesUpgradeRequirements? w buildings p type = true := by
  have hname : name ∈ buildingNames := by cases name <;> decide
  simp only [upgradableBuildingsToHash, named, List.mem_append, List.mem_filter, List.mem_map, hname, true_and,
    decide_eq_true_eq]
  refine or_congr_right ⟨?_, ?_⟩
  · rintro ⟨type, ⟨htype, hverifies⟩, heq⟩
    exact ⟨type, ⟨htype, heq⟩, hverifies⟩
  · rintro ⟨type, ⟨htype, heq⟩, hverifies⟩
    exact ⟨type, ⟨htype, hverifies⟩, heq⟩

/-- The building there is, if there is one, is the only one of its name. -/
theorem named_single (hsingle : db.rows rules p name ≤ 1) :
    named rules.toWorld db.buildings p name = [] ∨
      ∃ type, named rules.toWorld db.buildings p name = [type] := by
  rw [Db.rows, ← length_named] at hsingle
  rcases Nat.le_one_iff_eq_zero_or_eq_one.mp hsingle with hzero | hone
  · exact Or.inl (List.length_eq_zero_iff.mp hzero)
  · exact Or.inr (List.length_eq_one_iff.mp hone)

theorem mem_of_mem_named {w : World} {buildings : List Building} {type : Buildingtype}
    (htype : type ∈ named w buildings p name) : type ∈ w.buildingtypes ∧ type.name = name := by
  obtain ⟨htypes, hname⟩ := List.mem_filter.mp htype
  obtain ⟨building, -, hfind⟩ := List.mem_filterMap.mp htypes
  split at hfind
  · exact ⟨List.mem_of_find?_eq_some hfind, of_decide_eq_true hname⟩
  · cases hfind

theorem level_pos {buildings : List Building} {type : Buildingtype}
    (htype : type ∈ named rules.toWorld buildings p name) : 0 < buildingsToHash rules.toWorld buildings p name := by
  have hne : named rules.toWorld buildings p name ≠ [] := List.ne_nil_of_mem htype
  rw [buildingsToHash_eq, List.getLast?_eq_some_getLast hne]
  exact rules.one_le_level _ (mem_of_mem_named (List.getLast_mem hne)).1

theorem filter_typeAt (w : World) (level : ℕ) (names : List BuildingName) :
    (typeAt w name level).filter (fun type => type.name ∈ names) =
      if name ∈ names then typeAt w name level else none := by
  cases htype : typeAt w name level with
  | none => simp
  | some type =>
      obtain ⟨-, hname, -⟩ := typeAt_spec htype
      rw [Option.filter_some, hname]
      simp

/-- What the page offers is what an order would build, if there is at most one building of the name. -/
theorem upgradeButton_eq (hsingle : db.rows rules p name ≤ 1)
    (hmine : name = .crystalmine → (db.planets p).special = 4) :
    upgradeButton rules.toWorld db p name = buildable rules.toWorld db p name := by
  have hallowed : ¬(name = .crystalmine ∧ (db.planets p).special ≠ 4) := fun h => h.2 (hmine h.1)
  unfold upgradeButton buildable
  dsimp only
  rw [if_neg hallowed, findSome_named, filter_typeAt]
  refine ite_congr rfl (fun _ => rfl) fun _ => ?_
  obtain hnone | ⟨type, hone⟩ := named_single hsingle
  · have hlevel : buildingsToHash rules.toWorld db.buildings p name = 0 := by
      rw [buildingsToHash_eq, hnone]
      rfl
    have hlisted : name ∈ upgradableBuildingsToHash rules.toWorld db.buildings p ↔
        verifiesNewBuilding? rules.toWorld db.buildings p name = true := by
      rw [mem_upgradable, hnone, hlevel]
      simp
    rw [hnone, hlevel]
    exact if_congr hlisted rfl rfl
  · have hlevel : buildingsToHash rules.toWorld db.buildings p name = type.level := by
      rw [buildingsToHash_eq, hone]
      rfl
    have hmem : type ∈ named rules.toWorld db.buildings p name := hone ▸ List.mem_singleton_self type
    have hpos := rules.one_le_level type (mem_of_mem_named hmem).1
    have hlisted : name ∈ upgradableBuildingsToHash rules.toWorld db.buildings p ↔
        verifiesUpgradeRequirements? rules.toWorld db.buildings p type = true := by
      have hne : type.level ≠ 0 := by omega
      rw [mem_upgradable, hone, hlevel]
      simp [hne]
    rw [hone, hlevel]
    exact if_congr hlisted rfl rfl

/-- An order is accepted if its building is allowed and can be paid; it is then paid and enqueued. -/
theorem createBuildingJob_accepts (w : World) (p : PlanetId) (name : BuildingName) (db next : Db) :
    (createBuildingJob w p name).run db = .ok true next ↔
      ∃ type u, buildable w db p name = some type ∧ (db.planets p).user = some u ∧ Affords db p u type ∧
        next = { paid db p u type with delayed := db.delayed ++ [order db p type] } := by
  rw [createBuildingJob, run_bind_get]
  dsimp only
  constructor
  · intro hrun
    split at hrun
    · cases hrun
    · cases hrun
    · rename_i type u hbuildable huser
      split at hrun
      · cases hrun
      · rename_i hafford
        have haffords : Affords db p u type := by
          unfold Affords
          omega
        refine ⟨type, u, hbuildable, huser, haffords, ?_⟩
        rw [run_bind_modify] at hrun
        cases hrun
        rfl
  · rintro ⟨type, u, hbuildable, huser, haffords, rfl⟩
    unfold Affords at haffords
    rw [hbuildable, huser]
    dsimp only
    rw [if_neg (by omega), run_bind_modify, ← huser]
    rfl

/-- A planet with one building of each name lists no name twice. -/
theorem upgradable_nodup (hsingle : ∀ name, db.rows rules p name ≤ 1) :
    (upgradableBuildingsToHash rules.toWorld db.buildings p).Nodup := by
  refine List.nodup_append.mpr ⟨List.Nodup.filter _ (by decide), ?_, ?_⟩
  · -- the names of all its buildings are different, so those of some are
    have hall : ((typesOf rules.toWorld db.buildings p).map Buildingtype.name).Nodup := by
      refine List.nodup_iff_count_le_one.mpr fun name => ?_
      have hle := hsingle name
      rw [Db.rows, ← length_named, named, ← List.countP_eq_length_filter] at hle
      rw [List.count, List.countP_map]
      refine le_of_eq_of_le (List.countP_congr fun type _ => ?_) hle
      simp
    exact hall.sublist (List.filter_sublist.map _)
  · intro name hnew other hold
    obtain ⟨-, hlevel⟩ := List.mem_filter.mp hnew
    obtain ⟨type, htype, rfl⟩ := List.mem_map.mp hold
    rintro rfl
    have hnamed : type ∈ named rules.toWorld db.buildings p type.name :=
      List.mem_filter.mpr ⟨List.mem_of_mem_filter htype, decide_eq_true rfl⟩
    exact (level_pos hnamed).ne' (of_decide_eq_true hlevel).1

end Planet

/-- From the claim of an untouched planet on, with no first building ordered again before its job has
run, the page of the planet lists each name at most once, and an order is accepted exactly for what
the page has a button for, at the costs it shows.  Only a crystal mine may have a button in vain. -/
theorem buttons_build_what_they_show (rules : Rules) (p : PlanetId) (u : UserId) {start game : Game}
    {events : List GameEvent} (hfree : (start.db.planets p).user = none)
    (hrows : ∀ name, start.db.rows rules p name = 0) (hfirsts : ∀ name, start.db.firsts rules p name = 0)
    (hgood : Along (GameEvent.step rules) (fun game event => event.orderly rules p game = true)
      start (.claim p u :: events))
    (hrun : run (GameEvent.step rules) start (.claim p u :: events) = some game) :
    (Planet.upgradableBuildingsToHash rules.toWorld game.db.buildings p).Nodup ∧
      ∀ name next, (Planet.createBuildingJob rules.toWorld p name).run game.db = .ok true next ↔
        (name = .crystalmine → (game.db.planets p).special = 4) ∧
          ∃ type v, Planet.upgradeButton rules.toWorld game.db p name = some type ∧
            (game.db.planets p).user = some v ∧ Planet.Affords game.db p v type ∧
              next = { Planet.paid game.db p v type with
                delayed := game.db.delayed ++ [Planet.order game.db p type] } := by
  obtain ⟨claimed, hclaim, hrest⟩ := run_cons hrun
  have hclaimed : claimed.db.Sited rules p := by
    cases hclaim
    rw [after_onDb]
    exact Planet.claim_founds hfree hrows hfirsts u
  have hgame : game.db.Sited rules p :=
    run_keeps (fun game : Game => game.db.Sited rules p)
      (fun _ _ _ hgame horderly hstep => GameEvent.step_sited hgame horderly hstep) hclaimed
      (hgood.2 claimed hclaim) hrest
  have hsingle : ∀ name, game.db.rows rules p name ≤ 1 := fun name =>
    (Nat.le_add_right _ _).trans (hgame.single name)
  refine ⟨Planet.upgradable_nodup hsingle, fun name next => ?_⟩
  rw [Planet.createBuildingJob_accepts]
  by_cases hmine : name = .crystalmine → (game.db.planets p).special = 4
  · rw [Planet.upgradeButton_eq (hsingle name) hmine, and_iff_right hmine]
  · -- the order is refused at its first check
    refine ⟨?_, fun haccepted => absurd haccepted.1 hmine⟩
    rintro ⟨type, v, hbuildable, -⟩
    rw [Planet.buildable, if_pos (Classical.not_imp.mp hmine)] at hbuildable
    cases hbuildable

/-- After `changedMind` the page offers the next level of the mine, and an order for it is accepted. -/
theorem buttons_build_what_they_show_sample :
    Planet.upgradableBuildingsToHash Seeds.rules.toWorld changedMindGame.db.buildings 2 = [.oremine] ∧
      ∃ next, (Planet.createBuildingJob Seeds.rules.toWorld 2 .oremine).run changedMindGame.db =
        .ok true next := by
  have hrun : run (GameEvent.step Seeds.rules) deserted changedMind = some changedMindGame :=
    (Option.some_get _).symm
  have hbuttons := buttons_build_what_they_show Seeds.rules 2 1 rfl (fun _ => rfl) (fun _ => rfl)
    (by decide) hrun
  have hbutton : ∃ type, Planet.upgradeButton Seeds.rules.toWorld changedMindGame.db 2 .oremine = some type ∧
      Planet.Affords changedMindGame.db 2 1 type := by
    refine ⟨(Planet.upgradeButton Seeds.rules.toWorld changedMindGame.db 2 .oremine).get ?_, ?_, ?_⟩
    · decide
    · exact (Option.some_get _).symm
    · decide
  obtain ⟨type, htype, hafford⟩ := hbutton
  have howner : (changedMindGame.db.planets 2).user = some 1 := by decide
  refine ⟨by decide, _, (hbuttons.2 .oremine _).mpr ⟨?_, type, 1, htype, howner, hafford, rfl⟩⟩
  exact fun hmine => BuildingName.noConfusion hmine

end Mmog

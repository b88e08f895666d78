import Mmog.Model.Reports
import Mmog.Model.Seeds

/-!
# Spy reports

What a spy report holds depends on the spied world only as far as its mode and
its level show it, and the level follows the factors.
-/

namespace Mmog

open Ruby Action

namespace Spyreport

/-! ## The contents -/

def sightingsOf (row : FleetRow) : List Sighting :=
  row.shipfleets.map fun ships => ⟨row.attributes.user, ships.shipId, ships.amount⟩

def shipsAt (db : Db) (planet : PlanetId) : List Sighting :=
  ((db.fleets.select (Db.stationedAt planet)).filterMap db.fleets.get).flatMap sightingsOf

def buildingsAt (db : Db) (planet : PlanetId) : List ℕ :=
  (db.buildings.filter fun building => building.planet = planet).map Building.buildingtype

def techsOf (known : List UserTechnology) (owner : Option UserId) : List (ℕ × ℕ) :=
  (known.filter fun tech => owner = some tech.user).map fun tech => (tech.technology, tech.rank)

/-- Who reads the report. -/
def header (db : Db) (planet : PlanetId) (fleet : Fleet) (mode : ℕ) : Report :=
  let report := Report.about db planet fleet
  (if mode = 4 then report.defender.elim report report.addReceiver else report).addReceiver fleet.user

def filled (db : Db) (known : List UserTechnology) (planet : PlanetId) (fleet : Fleet) (mode spylevel : ℕ) : Spyreport where
  report := header db planet fleet mode
  mode := mode
  spylevel := spylevel
  resources := if mode < 2 ∧ 1 ≤ spylevel then some (resourcesOf db planet) else none
  buildingtypes := if mode < 1 ∧ 2 ≤ spylevel then buildingsAt db planet else []
  techstages := if mode < 1 ∧ 3 ≤ spylevel then techsOf known (db.planets planet).user else []
  shipcounts := if mode < 1 ∧ 4 ≤ spylevel then shipsAt db planet else []

section Filling

variable {db : Db} {self : Spyreport} {planet : PlanetId}

theorem unlessBelow_apply {collect : Spyreport → Act Spyreport} {found : Spyreport} (level : ℕ)
    (hcollect : (collect self).run db = .ok found db) :
    (self.unlessBelow level collect).run db = .ok (if level ≤ self.spylevel then found else self) db := by
  unfold unlessBelow
  by_cases hlevel : level ≤ self.spylevel
  · rw [if_neg (Nat.not_lt.mpr hlevel), if_pos hlevel, hcollect]
  · rw [if_pos (Nat.lt_of_not_le hlevel), if_neg hlevel, run_pure]

theorem addShips_apply (hplanet : self.report.defenderPlanet = planet) :
    self.addShips.run db = .ok { self with shipcounts := self.shipcounts ++ shipsAt db planet } db := by
  have hfleets : ∀ (ids : List FleetId) (self : Spyreport),
      ((ids.filterMap fun id => (db.fleets.get id).map fun (row : FleetRow) => ({ row.attributes with id } : Fleet)).foldlM
        (fun (self : Spyreport) (fleet : Fleet) => do
          return { self with shipcounts := self.shipcounts ++ (← fleet.sightings) }) self).run db =
        .ok { self with shipcounts := self.shipcounts ++ (ids.filterMap db.fleets.get).flatMap sightingsOf } db := by
    intro ids
    induction ids with
    | nil =>
        intro self
        rw [List.filterMap_nil, List.filterMap_nil, List.flatMap_nil, List.append_nil]
        rfl
    | cons id ids ih =>
        intro self
        rw [List.filterMap_cons, List.filterMap_cons]
        cases hget : db.fleets.get id with
        | none => exact ih self
        | some row =>
            have hsightings : (Fleet.sightings { row.attributes with id }).run db = .ok (sightingsOf row) db := by
              rw [Fleet.sightings, Fleet.shipfleets, bind_assoc, run_bind_get]
              dsimp only
              rw [hget]
              rfl
            rw [Option.map_some, List.foldlM_cons, bind_assoc, run_bind_of_ok hsightings, pure_bind, ih,
              List.flatMap_cons, List.append_assoc]
  subst hplanet
  rw [addShips, Fleet.select, bind_assoc, run_bind_get, pure_bind]
  exact hfleets _ self

/-! Each collector fills its own column, from its level on. -/

theorem resources_apply : (self.unlessBelow 1 (addResources planet)).run db = .ok { self with
    resources := if 1 ≤ self.spylevel then some (resourcesOf db planet) else self.resources } db := by
  rw [unlessBelow_apply 1 (show (self.addResources planet).run db =
    .ok { self with resources := some (resourcesOf db planet) } db from rfl)]
  split <;> rfl

theorem buildings_apply (hplanet : self.report.defenderPlanet = planet) :
    (self.unlessBelow 2 addBuildings).run db = .ok { self with
      buildingtypes := self.buildingtypes ++ if 2 ≤ self.spylevel then buildingsAt db planet else [] } db := by
  subst hplanet
  rw [unlessBelow_apply 2 (show self.addBuildings.run db = .ok { self with
    buildingtypes := self.buildingtypes ++ buildingsAt db self.report.defenderPlanet } db from rfl)]
  split
  · rfl
  · rw [List.append_nil]

theorem ships_apply (hplanet : self.report.defenderPlanet = planet) :
    (self.unlessBelow 4 addShips).run db = .ok { self with
      shipcounts := self.shipcounts ++ if 4 ≤ self.spylevel then shipsAt db planet else [] } db := by
  rw [unlessBelow_apply 4 (addShips_apply hplanet)]
  split
  · rfl
  · rw [List.append_nil]

theorem techs_apply (known : List UserTechnology) :
    (self.unlessBelow 3 (addTech known)).run db = .ok { self with
      techstages := self.techstages ++ if 3 ≤ self.spylevel then techsOf known self.report.defender else [] } db := by
  rw [unlessBelow_apply 3 (show (self.addTech known).run db = .ok { self with
    techstages := self.techstages ++ techsOf known self.report.defender } db from rfl)]
  split
  · rfl
  · rw [List.append_nil]

end Filling

theorem header_eq (db : Db) (planet : PlanetId) (fleet : Fleet) (mode : ℕ) :
    (header db planet fleet mode).defenderPlanet = planet ∧ (header db planet fleet mode).defender = (db.planets planet).user := by
  have hadd : ∀ (report : Report) (user : UserId), (report.addReceiver user).defenderPlanet = report.defenderPlanet ∧
      (report.addReceiver user).defender = report.defender := by
    intro report user
    unfold Report.addReceiver
    split <;> exact ⟨rfl, rfl⟩
  unfold header
  dsimp only
  rw [(hadd _ _).1, (hadd _ _).2]
  split
  · cases (Report.about db planet fleet).defender with
    | none => exact ⟨rfl, rfl⟩
    | some owner => exact hadd (Report.about db planet fleet) owner
  · exact ⟨rfl, rfl⟩

theorem techsOf_none (known : List UserTechnology) : techsOf known none = [] :=
  List.map_eq_nil_iff.mpr (List.filter_eq_nil_iff.mpr fun _ _ howner => Option.some_ne_none _ (of_decide_eq_true howner).symm)

theorem finishSpyreport_apply (db : Db) (known : List UserTechnology) (draw : LevelDraw) (planet : PlanetId) (fleet : Fleet)
    (atkSpyFactor defSpyFactor : ℚ) (mode : ℕ) :
    (finishSpyreport known draw planet fleet atkSpyFactor defSpyFactor mode).run db =
      .ok (filled db known planet fleet mode (calcSpylevel draw atkSpyFactor defSpyFactor)) db := by
  obtain ⟨hplanet, howner⟩ := header_eq db planet fleet mode
  rw [finishSpyreport, run_bind_get]
  unfold filled
  generalize calcSpylevel draw atkSpyFactor defSpyFactor = spylevel
  by_cases hmode : mode < 2
  · dsimp only
    rw [if_pos hmode]
    refine (run_bind_of_ok resources_apply _).trans ?_
    by_cases hzero : mode < 1
    · rw [if_pos hzero]
      refine (run_bind_of_ok (buildings_apply hplanet) _).trans ((run_bind_of_ok (ships_apply hplanet) _).trans ?_)
      by_cases hfree : (header db planet fleet mode).defender = none
      · rw [howner] at hfree
        refine (congrArg (EStateM.run · db) (if_pos (howner.trans hfree))).trans ?_
        simp only [hmode, hzero, true_and, hfree, techsOf_none, ite_self, List.nil_append]
        rfl
      · refine (congrArg (EStateM.run · db) (if_neg hfree)).trans ((techs_apply known).trans ?_)
        simp only [hmode, hzero, true_and, List.nil_append]
        rw [← howner]
        rfl
    · rw [if_neg hzero]
      simp only [hmode, hzero, true_and, false_and, if_false]
      rfl
  · dsimp only
    rw [if_neg hmode]
    simp only [hmode, show ¬mode < 1 by omega, false_and, if_false]
    rfl

/-! ## The level -/

theorem spylevelOf_mono {x y : Numeric} (hle : x.value ≤ y.value) : spylevelOf x ≤ spylevelOf y := by
  have hlt : ∀ bound : Numeric, bound < x → bound < y := fun _ hbound => lt_of_lt_of_le hbound hle
  have hfour := hlt (.lit (7 / 10))
  have hthree := hlt (.lit (1 / 2))
  have htwo := hlt (.lit (3 / 10))
  have hone := hlt (.lit (1 / 20))
  unfold spylevelOf
  grind

theorem calcSpylevel_mono (draw : LevelDraw) {atk atk' def_ def' : ℚ} (hatk : atk ≤ atk') (hdef : def' ≤ def_) :
    calcSpylevel draw atk def_ ≤ calcSpylevel draw atk' def' := by
  have hrate : 0 ≤ draw.rate := (Binary64.round_nonneg (by norm_num)).trans draw.rate_mem.1
  have hhalf : 0 ≤ Binary64.round (1 / 2) := Binary64.round_nonneg (by norm_num)
  have hdiff : Binary64.round (atk - def_) ≤ Binary64.round (atk' - def') := Binary64.round_mono (sub_le_sub hatk hdef)
  have hscaled := Binary64.round_mono (mul_le_mul_of_nonneg_right hdiff hrate)
  have hshifted := Binary64.round_mono (add_le_add_left hscaled (Binary64.round ((1 : ℤ) : ℚ)))
  exact spylevelOf_mono (Binary64.round_mono (mul_le_mul_of_nonneg_right hshifted hhalf))

/-! ## Two worlds -/

/-- What a report of a mode and a level may show of the planet is the same in two worlds. -/
structure Alike (planet : PlanetId) (mode spylevel : ℕ) (db db' : Db) (known known' : List UserTechnology) : Prop where
  owner : (db.planets planet).user = (db'.planets planet).user
  resources : mode < 2 → 1 ≤ spylevel → resourcesOf db planet = resourcesOf db' planet
  buildings : mode < 1 → 2 ≤ spylevel → buildingsAt db planet = buildingsAt db' planet
  technologies : mode < 1 → 3 ≤ spylevel →
    techsOf known (db.planets planet).user = techsOf known' (db'.planets planet).user
  ships : mode < 1 → 4 ≤ spylevel → shipsAt db planet = shipsAt db' planet

theorem header_congr {planet : PlanetId} {db db' : Db} (howner : (db.planets planet).user = (db'.planets planet).user)
    (fleet : Fleet) (mode : ℕ) : header db planet fleet mode = header db' planet fleet mode := by
  unfold header Report.about
  rw [howner]

theorem filled_congr {planet : PlanetId} {mode spylevel : ℕ} {db db' : Db} {known known' : List UserTechnology}
    (halike : Alike planet mode spylevel db db' known known') (fleet : Fleet) :
    filled db known planet fleet mode spylevel = filled db' known' planet fleet mode spylevel := by
  have hshown : ∀ {α : Type} {shown : Prop} [Decidable shown] {value value' none : α}, (shown → value = value') →
      (if shown then value else none) = if shown then value' else none :=
    fun hvalue => ite_congr rfl hvalue fun _ => rfl
  unfold filled
  rw [header_congr halike.owner fleet mode, hshown fun hshown => congrArg some (halike.resources hshown.1 hshown.2),
    hshown fun hshown => halike.buildings hshown.1 hshown.2, hshown fun hshown => halike.technologies hshown.1 hshown.2,
    hshown fun hshown => halike.ships hshown.1 hshown.2]

/-- Two worlds that agree on what a report of its mode and level may show give the same report, and the level does
not fall with a stronger attacker or a weaker defender. -/
theorem spyreport_leaks_nothing (draw : LevelDraw) (planet : PlanetId) (fleet : Fleet) (atkSpyFactor defSpyFactor : ℚ)
    (mode : ℕ) :
    (∀ db db' known known',
      Alike planet mode (calcSpylevel draw atkSpyFactor defSpyFactor) db db' known known' → ∃ report,
        (finishSpyreport known draw planet fleet atkSpyFactor defSpyFactor mode).run db = .ok report db ∧
        (finishSpyreport known' draw planet fleet atkSpyFactor defSpyFactor mode).run db' = .ok report db') ∧
      ∀ atk' def', atkSpyFactor ≤ atk' → def' ≤ defSpyFactor →
        calcSpylevel draw atkSpyFactor defSpyFactor ≤ calcSpylevel draw atk' def' := by
  refine ⟨fun db db' known known' halike => ⟨_, finishSpyreport_apply .., ?_⟩, fun atk' def' => calcSpylevel_mono draw⟩
  rw [finishSpyreport_apply, filled_congr halike fleet]

/-- Planet 11 shows its ships to nobody who spies with this little. -/
theorem spyreport_leaks_nothing_sample : ∃ report,
    (finishSpyreport [] {} 11 Seeds.scout 1 1 0).run Seeds.start = .ok report Seeds.start ∧
      (finishSpyreport [⟨2, 5, 1⟩] {} 11 Seeds.scout 1 1 0).run Seeds.start = .ok report Seeds.start := by
  have hlevel : calcSpylevel {} 1 1 = 2 := by decide +kernel
  refine (spyreport_leaks_nothing {} 11 Seeds.scout 1 1 0).1 Seeds.start Seeds.start [] [⟨2, 5, 1⟩]
    ⟨rfl, fun _ _ => rfl, fun _ _ => rfl, fun _ hshown => ?_, fun _ _ => rfl⟩
  rw [hlevel] at hshown
  exact absurd hshown (by decide)

/-! ## Worlds that differ in what is shown -/

/-- A planet without stocks and stores, and its owner without money. -/
def hideResources (planet : PlanetId) (db : Db) : Db :=
  let db := (db.planets planet).user.elim db fun owner => db.setMoney owner 0
  db.setPlanet planet { db.planets planet with
    energy := 0, maxenergy := 0, population := 0, maxpopulation := 0, ore := 0, maxore := 0, crystal := 0, maxcrystal := 0 }

def hideBuildings (planet : PlanetId) (db : Db) : Db :=
  { db with buildings := db.buildings.filter fun building => building.planet ≠ planet }

def hideShips (planet : PlanetId) (db : Db) : Db :=
  db.setFleets ((db.fleets.select (Db.stationedAt planet)).foldl
    (fun fleets id => fleets.modify id fun row => { row with shipfleets := [] }) db.fleets)

/-- A world without what a report of a mode and a level may show. -/
def hide (planet : PlanetId) (mode spylevel : ℕ) (db : Db) : Db :=
  let db := if mode < 2 ∧ 1 ≤ spylevel then hideResources planet db else db
  let db := if mode < 1 ∧ 2 ≤ spylevel then hideBuildings planet db else db
  if mode < 1 ∧ 4 ≤ spylevel then hideShips planet db else db

def hideTechs (mode spylevel : ℕ) (owner : Option UserId) (known : List UserTechnology) : List UserTechnology :=
  if mode < 1 ∧ 3 ≤ spylevel then known.filter fun tech => owner ≠ some tech.user else known

/-- Planet 11 after its ore has been used up. -/
def minedOut : Db := Seeds.start.setPlanet 11 { Seeds.planet (some 2) with ore := 0 }

theorem hide_minedOut {mode spylevel : ℕ} (hmode : mode < 2) (hlevel : 1 ≤ spylevel) :
    hide 11 mode spylevel minedOut = hide 11 mode spylevel Seeds.start := by
  have hresources : hideResources 11 minedOut = hideResources 11 Seeds.start := by
    have hplanets : (hideResources 11 minedOut).planets = (hideResources 11 Seeds.start).planets := by
      funext p
      by_cases hp : p = 11
      · subst hp
        rfl
      · exact (if_neg hp).trans ((if_neg hp).trans (if_neg hp).symm)
    have hrest : { hideResources 11 minedOut with planets := (hideResources 11 Seeds.start).planets } =
        hideResources 11 Seeds.start := rfl
    exact (congrArg (fun planets => { hideResources 11 minedOut with planets }) hplanets).trans hrest
  have hfirst : (if mode < 2 ∧ 1 ≤ spylevel then hideResources 11 minedOut else minedOut) =
      if mode < 2 ∧ 1 ≤ spylevel then hideResources 11 Seeds.start else Seeds.start := by
    rw [if_pos ⟨hmode, hlevel⟩, if_pos ⟨hmode, hlevel⟩, hresources]
  unfold hide
  dsimp only
  rw [hfirst]

/-- Worlds that differ in what a report may show give different reports. -/
theorem shown_ore_differs : ¬∀ (draw : LevelDraw) (planet : PlanetId) (fleet : Fleet) (atkSpyFactor defSpyFactor : ℚ)
    (mode : ℕ) (db db' : Db) (known known' : List UserTechnology),
    hide planet mode (calcSpylevel draw atkSpyFactor defSpyFactor) db =
      hide planet mode (calcSpylevel draw atkSpyFactor defSpyFactor) db' →
    hideTechs mode (calcSpylevel draw atkSpyFactor defSpyFactor) (db.planets planet).user known =
      hideTechs mode (calcSpylevel draw atkSpyFactor defSpyFactor) (db'.planets planet).user known' →
    value? ((finishSpyreport known draw planet fleet atkSpyFactor defSpyFactor mode).run db) =
      value? ((finishSpyreport known' draw planet fleet atkSpyFactor defSpyFactor mode).run db') := by
  intro hequal
  have hlevel : 1 ≤ calcSpylevel {} 1 1 := by decide +kernel
  have hsame := hequal {} 11 Seeds.scout 1 1 0 minedOut Seeds.start [] [] (hide_minedOut (by decide) hlevel) rfl
  rw [finishSpyreport_apply, finishSpyreport_apply] at hsame
  have hresources := congrArg Spyreport.resources (Option.some.inj hsame)
  unfold filled at hresources
  dsimp only at hresources
  rw [if_pos ⟨by decide, hlevel⟩, if_pos ⟨by decide, hlevel⟩] at hresources
  exact absurd (congrArg Resources.ore (Option.some.inj hresources)) (by decide)

end Spyreport

end Mmog

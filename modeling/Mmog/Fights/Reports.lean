import Mmog.Missions.Flights
import Mmog.Model.Battlereport
import Mmog.Model.Seeds
import Mmog.Ruby.Tally

/-!
# Battle reports

The first pass counts the ships of every fleet that takes part, the second one
looks the counts up again by user and ship alone.
-/

namespace Mmog

open Ruby Action Fleet Fight

namespace Battlereport

/-! ## Counting -/

/-- Counts by user and ship, with the amount afterwards as the value. -/
def tally : Tally Shipcount (UserId × ShipId) ℤ where
  key count := (count.user, count.ship)
  value count := count.amountAfter
  write amount count := { count with amountAfter := amount }
  key_write _ _ := rfl
  value_write _ _ := rfl
  write_write _ _ _ := rfl
  write_value _ := rfl

theorem setAmountAfter_eq (user : UserId) (ship : ShipId) (amount : ℤ) (counts : List Shipcount) :
    setAmountAfter user ship amount counts = tally.writeFirst (user, ship) amount counts := by
  induction counts with
  | nil => rfl
  | cons count counts ih =>
      have hkey : (count.user = user ∧ count.ship = ship) ↔ tally.key count = (user, ship) := Prod.mk.injEq .. |>.symm.to_iff
      rw [setAmountAfter, Tally.writeFirst, ih]
      exact if_congr hkey rfl rfl

/-- What the first pass counts of a fleet. -/
def countsOf (db : Db) (type : ℕ) (fleet : Fleet) : List Shipcount :=
  (rowsIn db fleet).map fun row => ⟨fleet.user, row.shipId, row.amount, 0, type⟩

/-- What the second pass writes for a fleet. -/
def writesOf (db : Db) (fleet : Fleet) : List ((UserId × ShipId) × ℤ) :=
  (rowsIn db fleet).map fun row => ((fleet.user, row.shipId), row.amount)

section Passes

variable {db : Db} {self : Battlereport} {fleet : Fleet} {fleets : List Fleet} {type : ℕ} {counts : List Shipcount}

theorem addFleetInfo_before (htype : ¬1 < type) (self : Battlereport) :
    (self.addFleetInfo (some fleet) type).run db =
      .ok { self with shipcounts := self.shipcounts ++ countsOf db type fleet } db := by
  have hrows : ∀ (rows : List Shipfleet) (self : Battlereport), (rows.foldlM (addShipfleet fleet type) self).run db =
      .ok { self with shipcounts :=
        self.shipcounts ++ rows.map fun row => ⟨fleet.user, row.shipId, row.amount, 0, type⟩ } db := by
    intro rows
    induction rows with
    | nil =>
        intro self
        rw [List.map_nil, List.append_nil]
        rfl
    | cons row rows ih =>
        intro self
        rw [List.foldlM_cons, addShipfleet, if_neg htype, pure_bind, ih, List.append_assoc]
        rfl
  rw [addFleetInfo, run_bind_get]
  exact hrows _ self

/-- The first pass counts every fleet, the attacker last. -/
theorem initBattlereport_counts (db : Db) (fleets : List Fleet) (self : Fleet) (mode : ℕ) :
    ∃ report, (initBattlereport fleets self mode).run db = .ok report db ∧
      report.shipcounts = fleets.flatMap (countsOf db 0) ++ countsOf db 1 self := by
  have hfleets : ∀ (fleets : List Fleet) (report : Battlereport), ∃ counted,
      (fleets.foldlM (fun (report : Battlereport) fleet =>
        (report.addReceiver fleet.user).addFleetInfo (some fleet) 0) report).run db = .ok counted db ∧
      counted.shipcounts = report.shipcounts ++ fleets.flatMap (countsOf db 0) := by
    intro fleets
    induction fleets with
    | nil => exact fun report => ⟨report, rfl, (List.append_nil _).symm⟩
    | cons fleet fleets ih =>
        intro report
        obtain ⟨counted, hrun, hcounted⟩ := ih { report.addReceiver fleet.user with
          shipcounts := report.shipcounts ++ countsOf db 0 fleet }
        refine ⟨counted, ?_, hcounted.trans ?_⟩
        · rw [List.foldlM_cons, run_bind_of_ok (addFleetInfo_before (by decide) _)]
          exact hrun
        · rw [List.flatMap_cons, List.append_assoc]
  obtain ⟨counted, hrun, hcounted⟩ := hfleets fleets
    { report := ⟨self.targetPlanet, (db.planets self.targetPlanet).user, self.user, self.startPlanet, self.arrivalTime, []⟩, mode }
  refine ⟨{ counted.addReceiver self.user with shipcounts := counted.shipcounts ++ countsOf db 1 self }, ?_,
    congrArg (· ++ countsOf db 1 self) hcounted⟩
  rw [initBattlereport, run_bind_get]
  exact (run_bind_of_ok hrun _).trans (addFleetInfo_before (by decide) _)

theorem addFleetInfo_after (htype : 1 < type) (hwrite : tally.writeAll (writesOf db fleet) self.shipcounts = some counts) :
    (self.addFleetInfo (some fleet) type).run db = .ok { self with shipcounts := counts } db := by
  have hrows : ∀ (rows : List Shipfleet) (self : Battlereport),
      tally.writeAll (rows.map fun row => ((fleet.user, row.shipId), row.amount)) self.shipcounts = some counts →
      (rows.foldlM (addShipfleet fleet type) self).run db = .ok { self with shipcounts := counts } db := by
    intro rows
    induction rows with
    | nil =>
        rintro self hwrite
        cases hwrite
        rfl
    | cons row rows ih =>
        intro self hwrite
        rw [List.map_cons, Tally.writeAll, List.foldlM_cons] at hwrite
        obtain ⟨first, hfirst, hrest⟩ := Option.bind_eq_some_iff.mp hwrite
        rw [List.foldlM_cons, addShipfleet, if_pos htype, setAmountAfter_eq, hfirst, pure_bind]
        exact ih { self with shipcounts := first } hrest
  rw [addFleetInfo, run_bind_get]
  exact hrows _ self hwrite

/-- The second pass writes what is left of the fleets it is given. -/
theorem finishBattlereport_counts {atkFleet : Option Fleet} (defended : Bool)
    (hwrite : tally.writeAll ((fleets ++ atkFleet.toList).flatMap (writesOf db)) self.shipcounts = some counts) :
    ∃ report, (self.finishBattlereport fleets atkFleet defended).run db = .ok report db ∧ report.shipcounts = counts := by
  have hfleets : ∀ (fleets : List Fleet) (report : Battlereport) (counts : List Shipcount),
      tally.writeAll (fleets.flatMap (writesOf db)) report.shipcounts = some counts →
      (fleets.foldlM (fun (report : Battlereport) fleet => report.addFleetInfo (some fleet) 2) report).run db =
        .ok { report with shipcounts := counts } db := by
    intro fleets
    induction fleets with
    | nil =>
        rintro report counts hwrite
        cases hwrite
        rfl
    | cons fleet fleets ih =>
        intro report counts hwrite
        rw [List.flatMap_cons, Tally.writeAll_append] at hwrite
        obtain ⟨first, hfirst, hrest⟩ := Option.bind_eq_some_iff.mp hwrite
        rw [List.foldlM_cons, run_bind_of_ok (addFleetInfo_after (by decide) hfirst)]
        exact ih { report with shipcounts := first } counts hrest
  rw [List.flatMap_append, Tally.writeAll_append] at hwrite
  obtain ⟨first, hfirst, hrest⟩ := Option.bind_eq_some_iff.mp hwrite
  have hattacker : (addFleetInfo atkFleet 3 { self with shipcounts := first }).run db =
      .ok { self with shipcounts := counts } db := by
    cases atkFleet with
    | none =>
        cases hrest
        rfl
    | some fleet =>
        rw [Option.toList_some, List.flatMap_singleton] at hrest
        exact addFleetInfo_after (by decide) hrest
  refine ⟨_, (run_bind_of_ok (hfleets fleets self first hfirst) _).trans (run_bind_of_ok hattacker _), rfl⟩

end Passes

/-! ## What a report should show -/

/-- The counts of a fleet with what is left of its ships later. -/
def shownCounts (db next : Db) (type : ℕ) (fleet : Fleet) : List Shipcount :=
  (rowsIn db fleet).map fun row =>
    ⟨fleet.user, row.shipId, row.amount, amountOf (rowsIn next fleet) row.shipId, type⟩

section Shown

variable {db next : Db} {fleet other : Fleet} {fleets : List Fleet} {type type' : ℕ}

theorem map_write_shown (db next : Db) (type : ℕ) (fleet : Fleet) :
    (shownCounts db next type fleet).map (tally.write 0) = countsOf db type fleet := by
  rw [shownCounts, List.map_map]
  rfl

theorem map_write_flatMap (db next : Db) (type : ℕ) (fleets : List Fleet) :
    (fleets.flatMap (shownCounts db next type)).map (tally.write 0) = fleets.flatMap (countsOf db type) := by
  rw [List.map_flatMap]
  exact List.flatMap_congr fun fleet _ => map_write_shown db next type fleet

theorem shownCounts_congr {next' : Db} (hrows : rowsIn next fleet = rowsIn next' fleet) :
    shownCounts db next type fleet = shownCounts db next' type fleet := by
  rw [shownCounts, hrows, shownCounts]

theorem shownCounts_nil (hrows : rowsIn db fleet = []) : shownCounts db next type fleet = [] := by
  rw [shownCounts, hrows, List.map_nil]

/-- Nothing is left of a fleet that is gone. -/
theorem value_shown_gone (hgone : rowsIn next fleet = []) {count : Shipcount}
    (hcount : count ∈ shownCounts db next type fleet) : tally.value count = 0 := by
  obtain ⟨row, -, rfl⟩ := List.mem_map.mp hcount
  change amountOf (rowsIn next fleet) row.shipId = 0
  rw [hgone]
  rfl

/-- A fleet with one row for each type is written as it should be shown. -/
theorem writesOf_eq (hone : (typesOf (rowsIn next fleet)).Nodup)
    (htypes : typesOf (rowsIn next fleet) = typesOf (rowsIn db fleet)) :
    writesOf next fleet =
      (shownCounts db next type fleet).map fun count => (tally.key count, tally.value count) := by
  have hwrites : writesOf next fleet =
      (typesOf (rowsIn next fleet)).map fun ship => ((fleet.user, ship), amountOf (rowsIn next fleet) ship) := by
    rw [writesOf, typesOf, List.map_map]
    refine List.map_congr_left fun row hrow => ?_
    rw [Function.comp_apply, amountOf, amountOf?_of_mem hone hrow]
    rfl
  rw [hwrites, htypes, typesOf, List.map_map, shownCounts, List.map_map]
  rfl

theorem apart_shown : (∀ count ∈ shownCounts db next type fleet, ∀ count' ∈ shownCounts db next type' other,
      tally.Apart 0 count count') ↔
    (fleet.user = other.user → ∀ ship ∈ typesOf (rowsIn db fleet), ship ∈ typesOf (rowsIn db other) →
      amountOf (rowsIn next fleet) ship = 0 ∧ amountOf (rowsIn next other) ship = 0) := by
  simp only [shownCounts, List.forall_mem_map, Tally.Apart, tally, Prod.mk.injEq, typesOf]
  constructor
  · rintro hall huser row hrow hship
    obtain ⟨row', hrow', heq⟩ := List.mem_map.mp hship
    obtain ⟨hfleet, hother⟩ := hall row hrow row' hrow' ⟨huser, heq.symm⟩
    exact ⟨hfleet, heq ▸ hother⟩
  · rintro hall row hrow row' hrow' ⟨huser, heq⟩
    obtain ⟨hfleet, hother⟩ := hall huser row hrow (heq ▸ List.mem_map_of_mem hrow')
    exact ⟨hfleet, heq ▸ hother⟩

theorem pairwise_shown (hone : (typesOf (rowsIn db fleet)).Nodup) :
    (shownCounts db next type fleet).Pairwise (tally.Apart 0) := by
  refine List.pairwise_map.mpr ((List.pairwise_map.mp hone).imp fun hne hkey => ?_)
  exact absurd (congrArg Prod.snd hkey) hne

theorem pairwise_flatMap_shown (hids : (fleets.map fun fleet => fleet.id).Nodup)
    (hone : ∀ fleet ∈ fleets, (typesOf (rowsIn db fleet)).Nodup) :
    (fleets.flatMap (shownCounts db next type)).Pairwise (tally.Apart 0) ↔
      ∀ fleet ∈ fleets, ∀ other ∈ fleets, fleet.id ≠ other.id → fleet.user = other.user →
        ∀ ship ∈ typesOf (rowsIn db fleet), ship ∈ typesOf (rowsIn db other) →
          amountOf (rowsIn next fleet) ship = 0 := by
  have hpairs : fleets.Pairwise (fun fleet other => fleet.id ≠ other.id) := List.pairwise_map.mp hids
  rw [List.pairwise_flatMap]
  constructor
  · rintro ⟨-, hapart⟩ fleet hfleet other hother hne huser ship hship hship'
    have hsymm : Std.Symm fun fleet other => ∀ count ∈ shownCounts db next type fleet,
        ∀ count' ∈ shownCounts db next type other, tally.Apart 0 count count' :=
      ⟨fun fleet other hall count hcount count' hcount' hkey => (hall count' hcount' count hcount hkey.symm).symm⟩
    have hall := hapart.forall hfleet hother fun heq => hne (congrArg Fleet.id heq)
    exact (apart_shown.mp hall huser ship hship hship').1
  · refine fun hall => ⟨fun fleet hfleet => pairwise_shown (hone fleet hfleet), ?_⟩
    refine hpairs.imp_of_mem fun hfleet hother hne => apart_shown.mpr fun huser ship hship hship' => ⟨?_, ?_⟩
    · exact hall _ hfleet _ hother hne huser ship hship hship'
    · exact hall _ hother _ hfleet hne.symm huser.symm ship hship' hship

end Shown

/-! ## The report of a fight -/

section Reported

variable (w : World) (draws : Draws) {db : Db} {self : Fleet} {planet : PlanetId} {report : Battlereport}

/-- The report as the first pass leaves it. -/
def Begun (db : Db) (self : Fleet) (planet : PlanetId) (report : Battlereport) : Prop :=
  report.shipcounts = (defenders db planet).flatMap (countsOf db 0) ++ countsOf db 1 self

theorem exists_zip {α β : Type*} {l : List α} {m : List β} (hlength : l.length ≤ m.length) {a : α} (ha : a ∈ l) :
    ∃ b, (a, b) ∈ l.zip m := by
  rw [← List.map_fst_zip hlength] at ha
  obtain ⟨⟨_, b⟩, hmem, rfl⟩ := List.mem_map.mp ha
  exact ⟨b, hmem⟩

section Passes

variable {struck : Db} (hbegun : Begun db self planet report)

include hbegun

/-- The second pass over the defenders, when each has a row for the types it had before. -/
theorem finish_defenders (hone : ∀ fleet ∈ defenders db planet, (typesOf (rowsIn struck fleet)).Nodup)
    (htypes : ∀ fleet ∈ defenders db planet, typesOf (rowsIn struck fleet) = typesOf (rowsIn db fleet)) :
    ∃ reported, (report.finishBattlereport (defenders db planet) none true).run struck = .ok reported struck ∧
      (reported.shipcounts = (defenders db planet).flatMap (shownCounts db struck 0) ++ countsOf db 1 self ↔
        ((defenders db planet).flatMap (shownCounts db struck 0)).Pairwise (tally.Apart 0)) := by
  let cells := (defenders db planet).flatMap (shownCounts db struck 0)
  have hwrites : (defenders db planet ++ (none : Option Fleet).toList).flatMap (writesOf struck) =
      cells.map fun count => (tally.key count, tally.value count) := by
    rw [Option.toList_none, List.append_nil, List.map_flatMap]
    exact List.flatMap_congr fun fleet hfleet => writesOf_eq (hone fleet hfleet) (htypes fleet hfleet)
  have hafter : ∀ count ∈ countsOf db 1 self, tally.value count = 0 := by
    intro count hcount
    obtain ⟨row, -, rfl⟩ := List.mem_map.mp hcount
    rfl
  have hblank : (countsOf db 1 self).map (tally.write 0) = countsOf db 1 self := by
    refine (List.map_congr_left fun count hcount => ?_).trans (List.map_id _)
    exact Tally.write_eq_iff.mpr (hafter count hcount)
  obtain ⟨written, hwrite, hright⟩ := Tally.writeAll_eq_iff (t := tally) [] cells (countsOf db 1 self)
    (fun _ hmem => absurd hmem List.not_mem_nil) hafter
  rw [List.nil_append, List.map_append, map_write_flatMap, hblank, ← hbegun, ← hwrites] at hwrite
  obtain ⟨reported, hrun, hcounts⟩ := finishBattlereport_counts true hwrite
  exact ⟨reported, hrun, hcounts ▸ hright⟩

/-- The second pass over the attacker, when the defenders are gone and it has a row for the types it had before. -/
theorem finish_attacker {left : Fleet} (huser : left.user = self.user) (hid : left.id = self.id)
    (hgone : ∀ fleet ∈ defenders db planet, rowsIn struck fleet = []) (hone : (typesOf (rowsIn struck self)).Nodup)
    (htypes : typesOf (rowsIn struck self) = typesOf (rowsIn db self)) :
    ∃ reported, (report.finishBattlereport [] (some left) false).run struck = .ok reported struck ∧
      (reported.shipcounts = (defenders db planet).flatMap (shownCounts db struck 0) ++ shownCounts db struck 1 self ↔
        ((defenders db planet).flatMap (shownCounts db struck 0) ++ shownCounts db struck 1 self).Pairwise
          (tally.Apart 0)) := by
  have hwrites : ([] ++ (some left).toList).flatMap (writesOf struck) =
      (shownCounts db struck 1 self).map fun count => (tally.key count, tally.value count) := by
    rw [← writesOf_eq hone htypes, List.nil_append, Option.toList_some, List.flatMap_singleton, writesOf, writesOf,
      rowsIn, hid, huser, rowsIn]
  have hbefore : ∀ count ∈ (defenders db planet).flatMap (shownCounts db struck 0), tally.value count = 0 := by
    intro count hcount
    obtain ⟨fleet, hfleet, hcount⟩ := List.mem_flatMap.mp hcount
    exact value_shown_gone (hgone fleet hfleet) hcount
  obtain ⟨written, hwrite, hright⟩ := Tally.writeAll_eq_iff (t := tally) _ (shownCounts db struck 1 self) []
    hbefore fun _ hmem => absurd hmem List.not_mem_nil
  rw [List.append_nil] at hwrite hright
  rw [List.map_append, map_write_flatMap, map_write_shown, ← hbegun, ← hwrites] at hwrite
  obtain ⟨reported, hrun, hcounts⟩ := finishBattlereport_counts false hwrite
  exact ⟨reported, hrun, hcounts ▸ hright⟩

end Passes

/-- Without fleets the second pass leaves the counts as they are. -/
theorem finish_nothing (db : Db) (defended : Bool) (report : Battlereport) :
    ∃ reported, (report.finishBattlereport [] none defended).run db = .ok reported db ∧
      reported.shipcounts = report.shipcounts :=
  finishBattlereport_counts defended rfl

/-! ### The three outcomes -/

theorem fightReported_beaten (hfactor : fightFactor db self planet < 0)
    (hvalid : db.fleets.All fun row => Valid row.shipfleets) (report : Battlereport) :
    (self.fightReported w draws planet report).run db = match losses w draws db self planet with
      | .error err => .error err db
      | .ok lost => (do
          let report ← report.finishBattlereport (defenders db planet) none true
          self.destroy
          return (none, report) : Act (Option Fleet × Battlereport)).run
            (db.setFleets (struckTable w db ((defenders db planet).zip lost) db.fleets)) := by
  rw [Fleet.fightReported, run_bind_of_ok (select_defenders db planet)]
  refine (congrArg (fun action : Act (Option Fleet × Battlereport) => action.run db) (if_pos hfactor)).trans ?_
  exact strike_run w draws hfactor hvalid _

theorem fightReported_drawn (hfactor : fightFactor db self planet = 0) (report : Battlereport) :
    ∃ reported, (self.fightReported w draws planet report).run db =
        .ok (none, reported) (db.setFleets ((cleared db planet).destroy self.id)) ∧
      reported.shipcounts = report.shipcounts := by
  have hclear := forM_destroy db (defenders db planet)
  rw [map_id_defenders] at hclear
  obtain ⟨reported, hfinish, hcounts⟩ := finish_nothing db true report
  refine ⟨reported, ?_, hcounts⟩
  rw [Fleet.fightReported, run_bind_of_ok (select_defenders db planet)]
  refine (congrArg (fun action : Act (Option Fleet × Battlereport) => action.run db) (if_neg hfactor.not_lt)).trans ?_
  refine (congrArg (fun action : Act (Option Fleet × Battlereport) => action.run db) (if_neg hfactor.not_gt)).trans ?_
  refine (run_bind_of_ok hfinish _).trans ((run_bind_of_ok hclear _).trans ?_)
  exact run_bind_of_ok (Fleet.destroy_apply _ self) _

section Winning

variable {row : FleetRow} (hget : db.fleets.get self.id = some row) (hfactor : 0 < fightFactor db self planet)

include hget hfactor

theorem fightReported_pos (report : Battlereport) : (self.fightReported w draws planet report).run db = (do
    let lost ← orRaise (attackerLosses w (Fleet.shipsOf row.shipfleets) (rest draws db self planet) draws.picks
      self.offense)
    let self ← self.destroyShips w lost
    (defenders db planet).forM Fleet.destroy
    self.save
    let self ← loot draws self planet
    let report ← report.finishBattlereport [] (some self) false
    return (some self, report) : Act (Option Fleet × Battlereport)).run db := by
  rw [Fleet.fightReported, run_bind_of_ok (select_defenders db planet)]
  refine (congrArg (fun action : Act (Option Fleet × Battlereport) => action.run db) (if_neg hfactor.not_gt)).trans ?_
  refine (congrArg (fun action : Act (Option Fleet × Battlereport) => action.run db) (if_pos hfactor)).trans ?_
  exact run_bind_of_ok (Fleet.getShips_apply hget) _

/-- An attacker who wins is reported with what it has left after the loot. -/
theorem fightReported_won (hvalid : db.fleets.All fun row => Valid row.shipfleets) (report : Battlereport) :
    (∃ err, losses w draws db self planet = .error err ∧
      (self.fight w draws planet).run db = .error err db ∧
      (self.fightReported w draws planet report).run db = .error err db) ∨
    ∃ lost left next, losses w draws db self planet = .ok [lost] ∧
      Fleet.enoughShips? row.shipfleets lost = true ∧ left.id = self.id ∧ left.user = self.user ∧
      (self.fight w draws planet).run db = .ok (some left) next ∧
      (self.fightReported w draws planet report).run db = (do
        let report ← report.finishBattlereport [] (some left) false
        return (some left, report) : Act (Option Fleet × Battlereport)).run next ∧
      (∀ fleet ∈ defenders db planet, rowsIn next fleet = []) ∧
      rowsIn next self = if Db.stationedAt planet row then [] else Fleet.removed lost row.shipfleets := by
  have hlosses := losses_of_pos w draws hget hfactor
  cases hlost : attackerLosses w (Fleet.shipsOf row.shipfleets) (rest draws db self planet) draws.picks
      self.offense with
  | error err =>
      refine .inl ⟨err, by rw [hlosses, hlost]; rfl, ?_, ?_⟩
      · rw [fight_pos w draws hget hfactor, hlost, run_bind_of_error (orRaise_error err db)]
      · rw [fightReported_pos w draws hget hfactor, hlost, run_bind_of_error (orRaise_error err db)]
  | ok lost =>
      have henough := attackerLosses_enough w (hvalid self.id row hget) hlost
      let struck := Fleet.revalued w db (Fleet.removed lost row.shipfleets) self
      obtain ⟨cargo, next, hloot, hboard⟩ := loot_board draws struck planet
        (db.setFleets (struckTableOf w db self row planet lost))
      have hrows : ∀ id, (next.fleets.get id).elim [] FleetRow.shipfleets =
          if id ∈ db.fleets.select (Db.stationedAt planet) then []
          else if id = self.id then Fleet.removed lost row.shipfleets
          else (db.fleets.get id).elim [] FleetRow.shipfleets := by
        intro id
        rw [show next.fleets = _ from congrArg Board.fleets hboard]
        change (((struckTableOf w db self row planet lost).modify self.id _).get id).elim [] FleetRow.shipfleets = _
        rw [Table.get_modify, struckTableOf, Table.get_modify, Table.get_foldl_destroy, Table.get_put _ hget]
        split_ifs <;> rfl
      refine .inr ⟨lost, struck.withCargo cargo, next, by rw [hlosses, hlost]; rfl, henough, rfl,
        congrArg Route.user (Fleet.valued_toRoute w db _ self.toAttributes), ?_, ?_, ?_, ?_⟩
      · rw [fight_loots w draws hget hfactor hlost henough]
        exact run_map_of_ok hloot some
      · rw [fightReported_pos w draws hget hfactor]
        exact (conquer_run w draws hget hlost henough _).trans (run_bind_of_ok hloot _)
      · intro fleet hfleet
        obtain ⟨found, hfound, hstationed, -⟩ := mem_defenders.mp hfleet
        exact (hrows fleet.id).trans (if_pos (Table.mem_select.mpr ⟨found, hfound, hstationed⟩))
      · have hmem : self.id ∈ db.fleets.select (Db.stationedAt planet) ↔ Db.stationedAt planet row = true := by
          rw [Table.mem_select, hget]
          simp
        rw [rowsIn, hrows, if_pos rfl]
        exact if_congr hmem rfl rfl

end Winning

/-! ### Truth -/

/-- For every fleet that takes part and every type in it there is one count, which shows what is left of it. -/
structure Truthful (db next : Db) (self : Fleet) (planet : PlanetId) (report : Battlereport) : Prop where
  once : ((defenders db planet ++ [self]).flatMap fun fleet =>
    (typesOf (rowsIn db fleet)).map fun ship => (fleet.id, ship)).Nodup
  counts : report.shipcounts =
    (defenders db planet).flatMap (shownCounts db next 0) ++ shownCounts db next 1 self

/-- Fleets of one user that are counted together keep no ships of a type they share. -/
structure Tellable (w : World) (draws : Draws) (db : Db) (self : Fleet) (planet : PlanetId) : Prop where
  /-- The attacker is none of the fleets that it attacks, unless it has no ships. -/
  apart : self.id ∈ (defenders db planet).map (fun fleet => fleet.id) → rowsIn db self = []
  defended : fightFactor db self planet < 0 → ∀ lost, losses w draws db self planet = .ok lost →
    ∀ loss ∈ (defenders db planet).zip lost, ∀ other ∈ defenders db planet, loss.1.id ≠ other.id →
      loss.1.user = other.user → ∀ ship ∈ typesOf (rowsIn db loss.1), ship ∈ typesOf (rowsIn db other) →
        loss.2.getD ship 0 = amountOf (rowsIn db loss.1) ship
  conquered : 0 < fightFactor db self planet → ∀ lost, losses w draws db self planet = .ok [lost] →
    ∀ fleet ∈ defenders db planet, fleet.user = self.user → ∀ ship ∈ typesOf (rowsIn db fleet),
      ship ∈ typesOf (rowsIn db self) → lost.getD ship 0 = amountOf (rowsIn db self) ship

section Truth

variable {next : Db} {left : Option Fleet} {reported : Battlereport}

theorem rowsIn_congr {fleet other : Fleet} (hid : fleet.id = other.id) : rowsIn db fleet = rowsIn db other := by
  rw [rowsIn, hid, rowsIn]

theorem one_row_rowsIn (hone : db.fleets.All fun row => (typesOf row.shipfleets).Nodup) (fleet : Fleet) :
    (typesOf (rowsIn db fleet)).Nodup := by
  rw [rowsIn]
  cases hget : db.fleets.get fleet.id with
  | none => exact List.nodup_nil
  | some row => exact hone fleet.id row hget

/-- No fleet is counted twice exactly when the attacker is not among the defenders. -/
theorem once_iff (hone : db.fleets.All fun row => (typesOf row.shipfleets).Nodup) :
    ((defenders db planet ++ [self]).flatMap fun fleet =>
        (typesOf (rowsIn db fleet)).map fun ship => (fleet.id, ship)).Nodup ↔
      (self.id ∈ (defenders db planet).map (fun fleet => fleet.id) → rowsIn db self = []) := by
  have hmap : ∀ fleet : Fleet, ((typesOf (rowsIn db fleet)).map fun ship => (fleet.id, ship)).Nodup := fun fleet =>
    (one_row_rowsIn hone fleet).map fun _ _ heq => (Prod.mk.inj heq).2
  have hdefenders : ((defenders db planet).flatMap fun fleet =>
      (typesOf (rowsIn db fleet)).map fun ship => (fleet.id, ship)).Nodup := by
    refine List.nodup_flatMap.mpr ⟨fun fleet _ => hmap fleet, ?_⟩
    refine (List.pairwise_map.mp (nodup_defenders db planet)).imp fun hne part hpart hpart' => ?_
    obtain ⟨_, -, rfl⟩ := List.mem_map.mp hpart
    obtain ⟨_, -, heq⟩ := List.mem_map.mp hpart'
    exact hne (Prod.mk.inj heq).1.symm
  rw [List.flatMap_append, List.flatMap_singleton, List.nodup_append]
  constructor
  · rintro ⟨-, -, hdisjoint⟩ hmem
    obtain ⟨fleet, hfleet, hid⟩ := List.mem_map.mp hmem
    by_contra hrows
    obtain ⟨row, rows, hcons⟩ := List.exists_cons_of_ne_nil hrows
    have hship : (self.id, row.shipId) ∈ (typesOf (rowsIn db self)).map fun ship => (self.id, ship) := by
      rw [hcons]
      exact List.mem_cons_self
    refine hdisjoint _ (List.mem_flatMap.mpr ⟨fleet, hfleet, ?_⟩) _ hship rfl
    rwa [rowsIn_congr hid, hid]
  · refine fun happart => ⟨hdefenders, hmap self, fun part hpart part' hpart' heq => ?_⟩
    subst heq
    obtain ⟨fleet, hfleet, hpart⟩ := List.mem_flatMap.mp hpart
    obtain ⟨ship, hship, rfl⟩ := List.mem_map.mp hpart'
    obtain ⟨_, -, heq⟩ := List.mem_map.mp hpart
    have hid : fleet.id = self.id := (Prod.mk.inj heq).1
    rw [happart (hid ▸ List.mem_map_of_mem hfleet)] at hship
    cases hship

/-- Of a fleet that is gone the first pass already shows what is left. -/
theorem shownCounts_gone {fleet : Fleet} {type : ℕ} (hgone : rowsIn next fleet = []) :
    shownCounts db next type fleet = countsOf db type fleet := by
  rw [shownCounts, hgone]
  rfl

variable {row : FleetRow} (hget : db.fleets.get self.id = some row)
variable (hvalid : db.fleets.All fun row => Valid row.shipfleets)
variable (hone : db.fleets.All fun row => (typesOf row.shipfleets).Nodup)
variable (happart : self.id ∈ (defenders db planet).map (fun fleet => fleet.id) → rowsIn db self = [])
variable (hbegun : Begun db self planet report)
variable (hrun : (self.fightReported w draws planet report).run db = .ok (left, reported) next)

section Beaten

include hvalid hone happart hbegun hrun

/-- When the defenders win, the counts of fleets that share a user and a type must all be 0. -/
theorem counts_beaten_iff (hfactor : fightFactor db self planet < 0) :
    reported.shipcounts = (defenders db planet).flatMap (shownCounts db next 0) ++ shownCounts db next 1 self ↔
      ∀ lost, losses w draws db self planet = .ok lost →
        ∀ loss ∈ (defenders db planet).zip lost, ∀ other ∈ defenders db planet, loss.1.id ≠ other.id →
          loss.1.user = other.user → ∀ ship ∈ typesOf (rowsIn db loss.1), ship ∈ typesOf (rowsIn db other) →
            loss.2.getD ship 0 = amountOf (rowsIn db loss.1) ship := by
  rw [fightReported_beaten w draws hfactor hvalid] at hrun
  cases hlosses : losses w draws db self planet with
  | error err =>
      rw [hlosses] at hrun
      cases hrun
  | ok lost =>
      rw [hlosses] at hrun
      have henough := defenderLosses_enough w hvalid (hlosses.symm.trans (if_pos hfactor)).symm
      let struck := db.setFleets (struckTable w db ((defenders db planet).zip lost) db.fleets)
      have hloss : ∀ fleet ∈ defenders db planet, ∃ lost', (fleet, lost') ∈ (defenders db planet).zip lost :=
        fun fleet hfleet => exists_zip henough.length_eq.le hfleet
      have htypes : ∀ fleet ∈ defenders db planet, typesOf (rowsIn struck fleet) = typesOf (rowsIn db fleet) := by
        intro fleet hfleet
        obtain ⟨_, hmem⟩ := hloss fleet hfleet
        rw [rowsIn_struck w henough hmem, typesOf_removed]
      obtain ⟨finished, hfinish, hcounts⟩ := finish_defenders hbegun
        (fun fleet hfleet => htypes fleet hfleet ▸ one_row_rowsIn hone fleet) htypes
      replace hrun := (run_bind_of_ok hfinish _).symm.trans hrun
      cases hrun
      have hdefenders : (defenders db planet).flatMap (shownCounts db (struck.setFleets (struck.fleets.destroy self.id)) 0) =
          (defenders db planet).flatMap (shownCounts db struck 0) := by
        refine List.flatMap_congr fun fleet hfleet => ?_
        by_cases hid : fleet.id = self.id
        · have hrows := (rowsIn_congr hid).trans (happart (hid ▸ List.mem_map_of_mem hfleet))
          rw [shownCounts_nil hrows, shownCounts_nil hrows]
        · refine shownCounts_congr ?_
          rw [rowsIn, Db.fleets_setFleets, Table.get_destroy_of_ne _ hid, rowsIn]
      have hself : shownCounts db (struck.setFleets (struck.fleets.destroy self.id)) 1 self = countsOf db 1 self := by
        refine shownCounts_gone ?_
        rw [rowsIn, Db.fleets_setFleets, Table.get_destroy_self]
        rfl
      rw [← hdefenders, ← hself] at hcounts
      refine hcounts.trans ?_
      rw [hdefenders, pairwise_flatMap_shown (nodup_defenders db planet) fun fleet _ => one_row_rowsIn hone fleet]
      have hleft : ∀ loss ∈ (defenders db planet).zip lost, ∀ ship,
          amountOf (rowsIn struck loss.1) ship = 0 ↔ loss.2.getD ship 0 = amountOf (rowsIn db loss.1) ship := by
        intro loss hmem ship
        rw [rowsIn_struck w henough hmem, amountOf_removed_of_enough (List.forall₂_zip henough hmem)]
        omega
      constructor
      · rintro hall _ ⟨⟩ loss hmem other hother hne huser ship hship hship'
        exact (hleft loss hmem ship).mp (hall _ (List.of_mem_zip hmem).1 other hother hne huser ship hship hship')
      · intro hall fleet hfleet other hother hne huser ship hship hship'
        obtain ⟨_, hmem⟩ := hloss fleet hfleet
        exact (hleft _ hmem ship).mpr (hall lost rfl _ hmem other hother hne huser ship hship hship')

end Beaten

include hbegun hrun in
/-- When nobody wins, nothing is left and nothing is written. -/
theorem counts_drawn (hfactor : fightFactor db self planet = 0) :
    reported.shipcounts = (defenders db planet).flatMap (shownCounts db next 0) ++ shownCounts db next 1 self := by
  obtain ⟨finished, hfought, hcounts⟩ := fightReported_drawn w draws hfactor report
  cases hfought.symm.trans hrun
  have hself : shownCounts db (db.setFleets ((cleared db planet).destroy self.id)) 1 self = countsOf db 1 self := by
    refine shownCounts_gone ?_
    rw [rowsIn, Db.fleets_setFleets, Table.get_destroy_self]
    rfl
  rw [hcounts, hbegun, hself]
  congr 1
  refine (List.flatMap_congr fun fleet hfleet => shownCounts_gone ?_).symm
  have hmem : fleet.id ∈ db.fleets.select (Db.stationedAt planet) := by
    rw [← map_id_defenders]
    exact List.mem_map_of_mem hfleet
  rw [rowsIn, Db.fleets_setFleets, Table.get_destroy, cleared, Table.get_foldl_destroy, if_pos hmem, ite_self]
  rfl

include hget hvalid hone happart hbegun hrun in
/-- When the attacker wins, it must not find a count of its user among those of the defenders. -/
theorem counts_won_iff (hfactor : 0 < fightFactor db self planet) :
    reported.shipcounts = (defenders db planet).flatMap (shownCounts db next 0) ++ shownCounts db next 1 self ↔
      ∀ lost, losses w draws db self planet = .ok [lost] →
        ∀ fleet ∈ defenders db planet, fleet.user = self.user → ∀ ship ∈ typesOf (rowsIn db fleet),
          ship ∈ typesOf (rowsIn db self) → lost.getD ship 0 = amountOf (rowsIn db self) ship := by
  obtain ⟨err, -, -, hraised⟩ | ⟨lost, winner, final, hlosses, henough, hid, huser, -, hreported, hgone, hself⟩ :=
    fightReported_won w draws hget hfactor hvalid report
  · cases hraised.symm.trans hrun
  have hrows : rowsIn db self = row.shipfleets := by rw [rowsIn, hget, Option.elim_some]
  -- a stationed attacker is gone, but then it had no ships
  have hleft : rowsIn final self = Fleet.removed lost (rowsIn db self) := by
    cases hstationed : Db.stationedAt planet row with
    | false => rw [hself, hstationed, hrows]; rfl
    | true =>
        have hmem : self.id ∈ (defenders db planet).map fun fleet => fleet.id := by
          rw [map_id_defenders]
          exact Table.mem_select.mpr ⟨row, hget, hstationed⟩
        rw [hself, hstationed, happart hmem]
        exact (List.map_eq_nil_iff.mp (typesOf_removed lost [])).symm
  have htypes : typesOf (rowsIn final self) = typesOf (rowsIn db self) := by rw [hleft, typesOf_removed]
  obtain ⟨finished, hfinish, hcounts⟩ := finish_attacker hbegun huser hid hgone
    (htypes ▸ one_row_rowsIn hone self) htypes
  replace hrun := (hreported.trans (run_bind_of_ok hfinish _)).symm.trans hrun
  cases hrun
  refine hcounts.trans ?_
  have hleftAmount : ∀ ship, amountOf (rowsIn next self) ship = 0 ↔
      lost.getD ship 0 = amountOf (rowsIn db self) ship := by
    intro ship
    rw [hleft, amountOf_removed_of_enough (hrows ▸ henough)]
    omega
  have hdefenders : ((defenders db planet).flatMap (shownCounts db next 0)).Pairwise (tally.Apart 0) := by
    refine (pairwise_flatMap_shown (nodup_defenders db planet) fun fleet _ => one_row_rowsIn hone fleet).mpr ?_
    intro fleet hfleet _ _ _ _ ship _ _
    rw [hgone fleet hfleet]
    rfl
  rw [List.pairwise_append]
  constructor
  · rintro ⟨-, -, hcross⟩ _ hfound fleet hfleet hsame ship hship hship'
    cases hlosses.symm.trans hfound
    have hfleetCross : ∀ count ∈ shownCounts db next 0 fleet, ∀ count' ∈ shownCounts db next 1 self,
        tally.Apart 0 count count' :=
      fun count hcount => hcross count (List.mem_flatMap.mpr ⟨fleet, hfleet, hcount⟩)
    exact (hleftAmount ship).mp (apart_shown.mp hfleetCross hsame ship hship hship').2
  · refine fun hall => ⟨hdefenders, pairwise_shown (one_row_rowsIn hone self), fun count hcount => ?_⟩
    obtain ⟨fleet, hfleet, hcount⟩ := List.mem_flatMap.mp hcount
    refine apart_shown.mpr (fun hsame ship hship hship' => ⟨?_, ?_⟩) count hcount
    · rw [hgone fleet hfleet]
      rfl
    · exact (hleftAmount ship).mpr (hall lost hlosses fleet hfleet hsame ship hship hship')

include hget hvalid hone hbegun hrun in
theorem truthful_iff : Truthful db next self planet reported ↔ Tellable w draws db self planet := by
  constructor
  · rintro ⟨honce, hcounts⟩
    have happart := (once_iff hone).mp honce
    refine ⟨happart, fun hfactor => ?_, fun hfactor => ?_⟩
    · exact (counts_beaten_iff w draws hvalid hone happart hbegun hrun hfactor).mp hcounts
    · exact (counts_won_iff w draws hget hvalid hone happart hbegun hrun hfactor).mp hcounts
  · rintro ⟨happart, hdefended, hconquered⟩
    refine ⟨(once_iff hone).mpr happart, ?_⟩
    rcases lt_trichotomy (fightFactor db self planet) 0 with hfactor | hfactor | hfactor
    · exact (counts_beaten_iff w draws hvalid hone happart hbegun hrun hfactor).mpr (hdefended hfactor)
    · exact counts_drawn w draws hbegun hrun hfactor
    · exact (counts_won_iff w draws hget hvalid hone happart hbegun hrun hfactor).mpr (hconquered hfactor)

end Truth

/-! ### Attacks -/

/-- The second pass finds the ships that the first one counted. -/
theorem finish_ok {counted : List Shipcount} (hcounted : report.shipcounts = counted.map (tally.write 0)) (db : Db)
    (fleets : List Fleet) (atkFleet : Option Fleet) (defended : Bool)
    (hkeys : ∀ fleet ∈ fleets ++ atkFleet.toList, ∀ ship ∈ typesOf (rowsIn db fleet),
      (fleet.user, ship) ∈ counted.map tally.key) :
    ∃ reported, (report.finishBattlereport fleets atkFleet defended).run db = .ok reported db := by
  have hmem : ∀ write ∈ (fleets ++ atkFleet.toList).flatMap (writesOf db), write.1 ∈ counted.map tally.key := by
    intro write hwrite
    obtain ⟨fleet, hfleet, hwrite⟩ := List.mem_flatMap.mp hwrite
    obtain ⟨row, hrow, rfl⟩ := List.mem_map.mp hwrite
    exact hkeys fleet hfleet row.shipId (List.mem_map_of_mem hrow)
  have hwrite := Tally.writeAll_blank 0 hmem
  rw [← hcounted] at hwrite
  obtain ⟨reported, hrun, -⟩ := finishBattlereport_counts defended hwrite
  exact ⟨reported, hrun⟩

theorem mem_keys_shown {fleet : Fleet} {ship : ShipId} (type : ℕ) (hship : ship ∈ typesOf (rowsIn db fleet)) :
    (fleet.user, ship) ∈ (shownCounts db db type fleet).map tally.key := by
  obtain ⟨row, hrow, rfl⟩ := List.mem_map.mp hship
  exact List.mem_map.mpr ⟨_, List.mem_map_of_mem hrow, rfl⟩

section Whole

variable {row : FleetRow} (hget : db.fleets.get self.id = some row)
variable (hvalid : db.fleets.All fun row => Valid row.shipfleets)

include hget hvalid

/-- The report changes nothing about the fight. -/
theorem fightReported_fight (hbegun : Begun db self planet report) :
    (Prod.fst <$> self.fightReported w draws planet report).run db = (self.fight w draws planet).run db := by
  let counted := (defenders db planet).flatMap (shownCounts db db 0) ++ shownCounts db db 1 self
  have hcounted : report.shipcounts = counted.map (tally.write 0) := by
    rw [hbegun, List.map_append, map_write_flatMap, map_write_shown]
  rcases lt_trichotomy (fightFactor db self planet) 0 with hfactor | hfactor | hfactor
  · rw [fight_beaten w draws hfactor hvalid, run_map, fightReported_beaten w draws hfactor hvalid]
    cases hlosses : losses w draws db self planet with
    | error err => rfl
    | ok lost =>
        have henough := defenderLosses_enough w hvalid (hlosses.symm.trans (if_pos hfactor)).symm
        let struck := db.setFleets (struckTable w db ((defenders db planet).zip lost) db.fleets)
        obtain ⟨reported, hfinish⟩ := finish_ok hcounted struck (defenders db planet) none true
          fun fleet hfleet ship hship => by
            rw [Option.toList_none, List.append_nil] at hfleet
            obtain ⟨_, hmem⟩ := exists_zip henough.length_eq.le hfleet
            rw [rowsIn_struck w henough hmem, typesOf_removed] at hship
            rw [List.map_append, List.map_flatMap]
            exact List.mem_append_left _ (List.mem_flatMap.mpr ⟨fleet, hfleet, mem_keys_shown 0 hship⟩)
        have hreported := run_bind_of_ok hfinish fun report =>
          (do self.destroy; return (none, report) : Act (Option Fleet × Battlereport))
        dsimp only
        rw [hreported]
        rfl
  · obtain ⟨reported, hrun, -⟩ := fightReported_drawn w draws hfactor report
    rw [fight_drawn w draws hfactor]
    exact run_map_of_ok hrun Prod.fst
  · obtain ⟨err, -, hfight, hreported⟩ |
      ⟨lost, left, next, -, -, hid, huser, hfight, hreported, -, hself⟩ :=
        fightReported_won w draws hget hfactor hvalid report
    · rw [hfight, run_map, hreported]
    · obtain ⟨reported, hfinish⟩ := finish_ok hcounted next [] (some left) false fun fleet hfleet ship hship => by
        obtain rfl := List.mem_singleton.mp hfleet
        rw [rowsIn_congr hid, hself] at hship
        have hrows : ship ∈ typesOf (rowsIn db self) := by
          rw [rowsIn, hget, Option.elim_some]
          split at hship
          · cases hship
          · rwa [typesOf_removed] at hship
        rw [huser, List.map_append]
        exact List.mem_append_right _ (mem_keys_shown 1 hrows)
      rw [hfight]
      exact run_map_of_ok (hreported.trans (run_bind_of_ok hfinish _)) Prod.fst

omit hget hvalid in
theorem attackReported_enemy (hrelation : db.relation self.user planet = .enemy) :
    ∃ report, Begun db self planet report ∧
      (self.attackReported w draws planet).run db = (self.fightReported w draws planet report).run db := by
  obtain ⟨report, hinit, hcounts⟩ := initBattlereport_counts db (defenders db planet) self 0
  refine ⟨report, hcounts, ?_⟩
  rw [Fleet.attackReported, run_bind_get, hrelation]
  exact (run_bind_of_ok (select_defenders db planet) _).trans (run_bind_of_ok hinit _)

omit hget hvalid in
/-- A report without a fight. -/
theorem attackReported_peaceful (hrelation : db.relation self.user planet ≠ .enemy) :
    ∃ reported, (self.attackReported w draws planet).run db = .ok (some self, reported) db := by
  have hpeaceful : ∀ mode, ∃ reported, (do
      let report ← initBattlereport [] self mode
      let report ← report.finishBattlereport [] (some self) false
      return (some self, report) : Act (Option Fleet × Battlereport)).run db = .ok (some self, reported) db := by
    intro mode
    obtain ⟨report, hinit, hcounts⟩ := initBattlereport_counts db [] self mode
    obtain ⟨reported, hfinish⟩ := finish_ok (hcounts.trans (map_write_shown db db 1 self).symm) db [] (some self) false
      fun fleet hfleet ship hship => by
        obtain rfl := List.mem_singleton.mp hfleet
        exact mem_keys_shown 1 hship
    exact ⟨reported, (run_bind_of_ok hinit _).trans (run_bind_of_ok hfinish _)⟩
  rw [Fleet.attackReported, run_bind_get]
  cases hcase : db.relation self.user planet with
  | unknown => exact hpeaceful 3
  | own => exact hpeaceful 5
  | allied => exact hpeaceful 4
  | enemy => exact absurd hcase hrelation

/-- With the return of the fleet that is left, the reported attack is the attack. -/
theorem attackAndReturn_eq : (self.attackAndReturn w draws planet).run db = (self.attack w draws planet).run db := by
  rw [Fleet.attackAndReturn]
  by_cases hrelation : db.relation self.user planet = .enemy
  · obtain ⟨report, hbegun, hreported⟩ := attackReported_enemy w draws hrelation
    have hfight := fightReported_fight w draws hget hvalid hbegun
    rw [Fleet.attack, run_bind_get, hrelation, run_bind, hreported]
    rw [run_map] at hfight
    dsimp only
    rw [run_bind, ← hfight]
    cases (self.fightReported w draws planet report).run db with
    | error err next => rfl
    | ok value next =>
        obtain ⟨left, reported⟩ := value
        cases left <;> rfl
  · obtain ⟨reported, hrun⟩ := attackReported_peaceful w draws hrelation
    rw [run_bind_of_ok hrun, Fleet.attack, run_bind_get]
    cases hcase : db.relation self.user planet with
    | enemy => exact absurd hcase hrelation
    | _ => rfl

end Whole

end Reported

end Battlereport

open Battlereport

/-- The state in which a ready job runs. -/
def Db.taken (db : Db) (index : ℕ) : Db := { db with ready := db.ready.eraseIdx index }

section Report

variable (w : World) (draws : Draws) {start db next : Db} {events : List Event} {index : ℕ} {id : FleetId}
variable {row : FleetRow} {planet : PlanetId}

/-- The rows of all fleets are as the second pass needs them. -/
structure Db.Counted (db : Db) : Prop where
  valid : db.fleets.All fun row => Valid row.shipfleets
  one_row : db.fleets.All fun row => (typesOf row.shipfleets).Nodup

theorem Db.counted_of_run (hfresh : start.Fresh) (hrun : run (step w) start events = some db) : db.Counted := by
  refine run_invariant (fun _ _ _ hcounted hstep => ?_) ⟨hfresh.all _, hfresh.all _⟩ hrun
  exact ⟨step_valid hcounted.valid hstep, step_one_row hcounted.valid hcounted.one_row hstep⟩

/-- In every run a worker that takes the job of an attack on an enemy planet attacks and saves a report, which tells
the truth exactly when no counts can be mistaken for each other. -/
theorem report_truthful_iff (hfresh : start.Fresh) (hrun : run (step w) start events = some db)
    (hready : db.ready[index]? = some (.attackPlanet id planet)) (hget : db.fleets.get id = some row)
    (hrelation : db.relation row.attributes.user planet = .enemy) {left : Option Fleet} {report : Battlereport}
    (hattack : ((Fleet.ofRow id row).attackReported w draws planet).run (db.taken index) = .ok (left, report) next) :
    step w db (.work index draws) =
        settled (((Fleet.ofRow id row).attackAndReturn w draws planet).run (db.taken index)) ∧
      (Truthful (db.taken index) next (Fleet.ofRow id row) planet report ↔
        Tellable w draws (db.taken index) (Fleet.ofRow id row) planet) := by
  obtain ⟨hvalid, hone⟩ := Db.counted_of_run w hfresh hrun
  have htaken : (db.taken index).fleets.get (Fleet.ofRow id row).id = some row := hget
  constructor
  · rw [step, hready]
    dsimp only [Job.perform]
    rw [attackAndReturn_eq w draws htaken hvalid]
    exact congrArg settled (run_bind_of_ok (find_of_some htaken) _)
  · have htakenRelation : (db.taken index).relation (Fleet.ofRow id row).user planet = .enemy := hrelation
    obtain ⟨begun, hbegun, hreported⟩ := attackReported_enemy w draws htakenRelation
    exact truthful_iff w draws htaken hvalid hone hbegun (hreported.symm.trans hattack)

end Report

/-! ## Two fleets of one user -/

/-- Planet 11 belongs to an ally of user 3. -/
def alliedPlanets : Db :=
  { Seeds.start with
    planets := fun p =>
      Seeds.planet (if p = 1 then some 1 else if p = 11 then some 2 else if p = 21 then some 3 else none)
    users := fun u => { money := 20000, alliance := some (if u = 1 then 1 else 2), userSetting := {} } }

theorem alliedPlanets_fresh : alliedPlanets.Fresh := ⟨rfl, nofun, nofun⟩

/-- A fighter leaves for planet 11. -/
def fighterOff (fleet : FleetId) (mission : MissionId) : Params where
  fleet := fleet
  mission := mission
  planet := some 11
  ship ship := if ship = 3 then some 1 else none

/-- User 3 stations two fighters on planet 11, then one of user 1 arrives to attack them. -/
def siege : List Event :=
  [.addShip 3 1, .addShip 3 1, .addShip 3 21, .addShip 3 21, .addShip 3 21, .send (fighterOff 2 4),
    .send (fighterOff 2 4), .send (fighterOff 1 3), .wait 9, .schedule 0, .schedule 0, .schedule 0, .work 0 {},
    .work 0 {}]

/-- The attack hits the second of the two fighters. -/
def secondHit : Draws where
  picks := [(1, 0)]

structure Siege (db : Db) (row : FleetRow) (left : Option Fleet) (report : Battlereport) (next : Db) : Prop where
  past : run (step Seeds.world) alliedPlanets siege = some db
  ready : db.ready[0]? = some (.attackPlanet 8 11)
  get : db.fleets.get 8 = some row
  relation : db.relation row.attributes.user 11 = .enemy
  attack : ((Fleet.ofRow 8 row).attackReported Seeds.world secondHit 11).run (db.taken 0) = .ok (left, report) next

theorem exists_siege (test : Db → FleetRow → Battlereport → Db → Bool)
    (htest : ((run (step Seeds.world) alliedPlanets siege).any fun db =>
      db.ready[0]? = some (.attackPlanet 8 11) ∧ (db.fleets.get 8).any fun row =>
        let result := ((Fleet.ofRow 8 row).attackReported Seeds.world secondHit 11).run (db.taken 0)
        db.relation row.attributes.user 11 = .enemy ∧ (value? result).any fun (_, report) =>
          test db row report (after result)) = true) :
    ∃ db row left report next, Siege db row left report next ∧ test db row report next = true := by
  rw [Option.any_eq_true] at htest
  obtain ⟨db, hpast, htest⟩ := htest
  obtain ⟨hready, htest⟩ := of_decide_eq_true htest
  rw [Option.any_eq_true] at htest
  obtain ⟨row, hget, htest⟩ := htest
  obtain ⟨hrelation, htest⟩ := of_decide_eq_true htest
  rw [Option.any_eq_true] at htest
  obtain ⟨⟨left, report⟩, hvalue, htest⟩ := htest
  exact ⟨db, row, left, report, _, ⟨hpast, hready, hget, hrelation, eq_ok_of_value? hvalue⟩, htest⟩

theorem report_truthful_iff_siege : ∃ db row left report next, Siege db row left report next ∧
    step Seeds.world db (.work 0 secondHit) =
      settled (((Fleet.ofRow 8 row).attackAndReturn Seeds.world secondHit 11).run (db.taken 0)) ∧
    (Truthful (db.taken 0) next (Fleet.ofRow 8 row) 11 report ↔
      Tellable Seeds.world secondHit (db.taken 0) (Fleet.ofRow 8 row) 11) := by
  obtain ⟨db, row, left, report, next, hsiege, -⟩ := exists_siege (fun _ _ _ _ => true) (by decide +kernel)
  obtain ⟨hstep, htruthful⟩ := report_truthful_iff Seeds.world secondHit alliedPlanets_fresh hsiege.past hsiege.ready
    hsiege.get hsiege.relation hsiege.attack
  exact ⟨db, row, left, report, next, hsiege, hstep, htruthful⟩

/-- The fighter that survives is shown as lost. -/
theorem survivor_reported_lost :
    ¬∀ (w : World) (draws : Draws) (start db next : Db) (events : List Event) (index : ℕ) (id : FleetId)
      (row : FleetRow) (planet : PlanetId) (left : Option Fleet) (report : Battlereport), start.Fresh →
      run (step w) start events = some db → db.ready[index]? = some (.attackPlanet id planet) →
      db.fleets.get id = some row → db.relation row.attributes.user planet = .enemy →
      ((Fleet.ofRow id row).attackReported w draws planet).run (db.taken index) = .ok (left, report) next →
      Truthful (db.taken index) next (Fleet.ofRow id row) planet report := by
  intro hall
  obtain ⟨db, row, left, report, next, hsiege, htest⟩ := exists_siege (fun db row report next =>
    report.shipcounts ≠ (defenders (db.taken 0) 11).flatMap (shownCounts (db.taken 0) next 0) ++
      shownCounts (db.taken 0) next 1 (Fleet.ofRow 8 row)) (by decide +kernel)
  have htruthful := hall Seeds.world secondHit alliedPlanets db next siege 0 8 row 11 left report alliedPlanets_fresh
    hsiege.past hsiege.ready hsiege.get hsiege.relation hsiege.attack
  obtain ⟨-, hcounts⟩ := htruthful
  exact of_decide_eq_true htest hcounts

end Mmog

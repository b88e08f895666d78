import Mmog.Fights.Loot
import Mmog.Fights.Outcome

/-!
# What a victory brings

The loot of an attacker who wins is exactly what the planet and its owner lose,
but it takes the place of the cargo that the fleet came with.
-/

namespace Mmog.Fight

open Ruby Action Planet

section Looting

variable (draws : Draws) (self : Fleet) (planet : PlanetId) (db : Db)

/-- The cargo after looting is what the planet and its owner have lost. -/
theorem loot_transfers : ∃ looted next, (loot draws self planet).run db = .ok looted next ∧
    (∀ type, Loadable type → looted.amount type = db.holding planet type - next.holding planet type) ∧
    ∀ row, next.fleets.get self.id = some row → row.attributes = looted.toAttributes := by
  obtain ⟨next, hrun, hore, hcrystal, hmoney⟩ := loot_apply draws self planet db
  obtain ⟨cargo, saved, hsaved, hboard⟩ := loot_board draws self planet db
  obtain ⟨hlooted, rfl⟩ := EStateM.Result.ok.inj (hrun.symm.trans hsaved)
  refine ⟨_, _, hrun, ?_, ?_⟩
  · rintro type (rfl | rfl | rfl)
    · rw [hore]
      exact (sub_sub_cancel _ _).symm
    · rw [hcrystal]
      exact (sub_sub_cancel _ _).symm
    · rw [hmoney]
      exact (sub_sub_cancel _ _).symm
  · intro row hget
    rw [show next.fleets = _ from congrArg Board.fleets hboard] at hget
    obtain ⟨found, -, rfl⟩ := Option.map_eq_some_iff.mp ((if_pos rfl).symm.trans hget)
    rw [hlooted]

end Looting

/-- An attacker who wins has, of every kind, what it had before and what the planet or its owner lost if and only
if it had nothing before. -/
theorem victory_keeps_cargo_iff (w : World) (draws : Draws) {db : Db} {planet : PlanetId} {self : Fleet}
    {row : FleetRow} (hget : db.fleets.get self.id = some row) (hfactor : 0 < fightFactor db self planet)
    {winner : Fleet} {next : Db} (hrun : (self.fight w draws planet).run db = .ok (some winner) next) :
    ((∀ type, Loadable type → winner.amount type =
          self.amount type + (db.holding planet type - next.holding planet type)) ↔
        ∀ type, Loadable type → self.amount type = 0) ∧
      ∀ row, next.fleets.get self.id = some row → row.attributes = winner.toAttributes := by
  cases hlost : attackerLosses w (Fleet.shipsOf row.shipfleets) (rest draws db self planet) draws.picks
      self.offense with
  | error err =>
      rw [fight_pos w draws hget hfactor, hlost, run_bind_of_error (orRaise_error err db)] at hrun
      cases hrun
  | ok lost =>
      by_cases henough : Fleet.enoughShips? row.shipfleets lost = true
      · let struck := Fleet.revalued w db (Fleet.removed lost row.shipfleets) self
        obtain ⟨looted, final, hloot, hkinds, hrow⟩ := loot_transfers draws struck planet
          (db.setFleets (struckTableOf w db self row planet lost))
        rw [fight_loots w draws hget hfactor hlost henough, run_map_of_ok hloot some] at hrun
        cases hrun
        refine ⟨forall₂_congr fun type htype => ?_, hrow⟩
        have hkind : winner.amount type = db.holding planet type - next.holding planet type := hkinds type htype
        rw [hkind]
        omega
      · have hdestroy := Fleet.destroyShips_not_enough w hget henough
        rw [fight_pos w draws hget hfactor, hlost, run_bind_of_ok (orRaise_ok lost db),
          run_bind_of_error hdestroy] at hrun
        cases hrun

/-- A fighter with so much ore aboard. -/
def raider (ore : ℤ) : Fleet := { Seeds.scout with ore }

def raiderRow (ore : ℤ) : FleetRow := ⟨(raider ore).toAttributes, [⟨3, 1⟩]⟩

/-- The fighter is the only fleet there is. -/
def raiderDb (ore : ℤ) : Db := Seeds.start.setFleets (Table.empty.create (raiderRow ore))

def raidOutcome (ore : ℤ) : EStateM.Result Err Db (Option Fleet) :=
  ((raider ore).fight Seeds.world {} 11).run (raiderDb ore)

theorem exists_winner {result : EStateM.Result Err Db (Option Fleet)} (hsome : (value? result).join.isSome = true) :
    ∃ winner, result = .ok (some winner) (after result) ∧ (value? result).join = some winner := by
  obtain ⟨winner, hwinner⟩ := Option.isSome_iff_exists.mp hsome
  exact ⟨winner, eq_ok_of_value? (Option.join_eq_some_iff.mp hwinner), hwinner⟩

theorem victory_keeps_cargo_sample : ∃ winner next, raidOutcome 0 = .ok (some winner) next ∧
    ∀ type, Loadable type → winner.amount type =
      (raider 0).amount type + ((raiderDb 0).holding 11 type - next.holding 11 type) := by
  have hwon : (value? (raidOutcome 0)).join.isSome = true := by decide +kernel
  obtain ⟨winner, hrun, -⟩ := exists_winner hwon
  have hiff := victory_keeps_cargo_iff Seeds.world {} (show (raiderDb 0).fleets.get (raider 0).id = some (raiderRow 0)
    from rfl) (by decide) hrun
  refine ⟨winner, _, hrun, hiff.1.mpr ?_⟩
  rintro type (rfl | rfl | rfl) <;> rfl

/-- The ten ore that the fighter came with are gone. -/
theorem victory_loses_cargo :
    ¬∀ (w : World) (draws : Draws) (db : Db) (planet : PlanetId) (self : Fleet) (row : FleetRow),
      db.fleets.get self.id = some row → 0 < fightFactor db self planet →
        ∀ winner next, (self.fight w draws planet).run db = .ok (some winner) next → ∀ type, Loadable type →
          winner.amount type = self.amount type + (db.holding planet type - next.holding planet type) := by
  intro hall
  have hwon : (value? (raidOutcome 10)).join.isSome = true := by decide +kernel
  obtain ⟨winner, hrun, hwinner⟩ := exists_winner hwon
  have hore := hall Seeds.world {} (raiderDb 10) 11 (raider 10) (raiderRow 10) rfl (by decide) winner _ hrun
    .ore (.inl rfl)
  have hbefore : (raider 10).amount .ore = 10 := rfl
  have hloot : (value? (raidOutcome 10)).join.map (fun winner => winner.amount .ore) =
      some ((raiderDb 10).holding 11 .ore - (after (raidOutcome 10)).holding 11 .ore) := by decide +kernel
  rw [hwinner, Option.map_some, Option.some.injEq] at hloot
  rw [hloot, hbefore] at hore
  omega

end Mmog.Fight

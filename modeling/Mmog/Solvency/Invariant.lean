import Mmog.Game.Board
import Mmog.Game.Build

/-!
# Nothing is negative

The stocks of planets, the money of users and the cargo and ships of fleets.
Taking and giving keep them from falling below zero, and a planet that starts a
building can pay for it.
-/

namespace Mmog

open Ruby Action

/-- No stock and no store of the planet is negative. -/
structure Planet.Solvent (planet : Planet) : Prop where
  ore : 0 ≤ planet.ore
  maxore : 0 ≤ planet.maxore
  crystal : 0 ≤ planet.crystal
  maxcrystal : 0 ≤ planet.maxcrystal
  population : 0 ≤ planet.population
  maxpopulation : 0 ≤ planet.maxpopulation

structure Cargo.Solvent (cargo : Cargo) : Prop where
  ore : 0 ≤ cargo.ore
  crystal : 0 ≤ cargo.crystal
  credit : 0 ≤ cargo.credit

/-- No ship type has a negative amount. -/
def Fleet.Counted (rows : List Shipfleet) : Prop := ∀ ship, 0 ≤ amountOf rows ship

structure FleetRow.Solvent (row : FleetRow) : Prop where
  cargo : row.attributes.toCargo.Solvent
  ships : Fleet.Counted row.shipfleets

structure Db.Solvent (db : Db) : Prop where
  planets : ∀ p, (db.planets p).Solvent
  money : ∀ u, 0 ≤ (db.users u).money
  fleets : db.fleets.All FleetRow.Solvent

/-- Owner, energy and what is being built do not count. -/
theorem Planet.Solvent.of_eq {planet other : Planet} (hplanet : planet.Solvent)
    (hore : other.ore = planet.ore) (hmaxore : other.maxore = planet.maxore)
    (hcrystal : other.crystal = planet.crystal) (hmaxcrystal : other.maxcrystal = planet.maxcrystal)
    (hpopulation : other.population = planet.population)
    (hmaxpopulation : other.maxpopulation = planet.maxpopulation) : other.Solvent := by
  constructor
  · exact hore ▸ hplanet.ore
  · exact hmaxore ▸ hplanet.maxore
  · exact hcrystal ▸ hplanet.crystal
  · exact hmaxcrystal ▸ hplanet.maxcrystal
  · exact hpopulation ▸ hplanet.population
  · exact hmaxpopulation ▸ hplanet.maxpopulation

namespace Db.Solvent

variable {db : Db}

theorem setPlanet (hdb : db.Solvent) {planet : Planet} (hplanet : planet.Solvent) (p : PlanetId) :
    (db.setPlanet p planet).Solvent := by
  refine ⟨fun q => ?_, hdb.money, hdb.fleets⟩
  rw [Db.setPlanet]
  dsimp only
  split
  · exact hplanet
  · exact hdb.planets q

theorem setMoney (hdb : db.Solvent) {money : ℤ} (hmoney : 0 ≤ money) (u : UserId) :
    (db.setMoney u money).Solvent := by
  refine ⟨hdb.planets, fun v => ?_, hdb.fleets⟩
  rw [Db.setMoney]
  dsimp only
  split
  · exact hmoney
  · exact hdb.money v

theorem setUserSetting (hdb : db.Solvent) (u : UserId) (userSetting : UserSetting) :
    (db.setUserSetting u userSetting).Solvent := by
  refine ⟨hdb.planets, fun v => ?_, hdb.fleets⟩
  rw [Db.setUserSetting]
  dsimp only
  split
  · exact hdb.money u
  · exact hdb.money v

theorem setFleets (hdb : db.Solvent) {t : Table FleetRow} (ht : t.All FleetRow.Solvent) :
    (db.setFleets t).Solvent :=
  ⟨hdb.planets, hdb.money, ht⟩

/-- Clock, buildings and jobs do not count. -/
theorem of_eq (hdb : db.Solvent) {next : Db} (hplanets : next.planets = db.planets)
    (husers : next.users = db.users) (hfleets : next.fleets = db.fleets) : next.Solvent :=
  ⟨hplanets ▸ hdb.planets, husers ▸ hdb.money, hfleets ▸ hdb.fleets⟩

end Db.Solvent

/-! ## The queue -/

theorem Resque.enqueueAt_solvent (timestamp : ℤ) (job : Job) :
    Safe Db.Solvent (Resque.enqueueAt timestamp job) anything :=
  Safe.modify fun _ hdb => hdb.of_eq rfl rfl rfl

theorem Resque.enqueueIn_solvent (seconds : ℤ) (job : Job) :
    Safe Db.Solvent (Resque.enqueueIn seconds job) anything :=
  Safe.get.bind fun _ _ => Resque.enqueueAt_solvent _ job

theorem Resque.removeDelayed_solvent (job : Job) :
    Safe Db.Solvent (Resque.removeDelayed job) anything :=
  Safe.modify fun _ hdb => hdb.of_eq rfl rfl rfl

namespace Planet

theorem Solvent.stock {planet : Planet} (hplanet : planet.Solvent) {type : Resource}
    (htype : type ≠ .energy) : 0 ≤ planet.stock type := by
  cases type with
  | ore => exact hplanet.ore
  | crystal => exact hplanet.crystal
  | population => exact hplanet.population
  | energy => exact absurd rfl htype
  | money => exact le_refl _
  | other => exact le_refl _

theorem Solvent.setStock {planet : Planet} (hplanet : planet.Solvent) {type : Resource} {n : ℤ}
    (hn : type ≠ .energy → 0 ≤ n) : (planet.setStock type n).Solvent := by
  cases type with
  | ore => exact { hplanet with ore := hn (by decide) }
  | crystal => exact { hplanet with crystal := hn (by decide) }
  | population => exact { hplanet with population := hn (by decide) }
  | energy => exact hplanet.of_eq rfl rfl rfl rfl rfl rfl
  | money => exact hplanet
  | other => exact hplanet

/-! ## Taking and giving -/

/-- Taking gives something that is not negative, except from an energy that is. -/
theorem take_solvent (p : PlanetId) (type : Resource) {number : Numeric}
    (hnumber : type ≠ .energy → number.Rounded) :
    Safe Db.Solvent (take p type number) fun back => type ≠ .energy → 0 ≤ back.value := by
  unfold take
  refine Safe.ite (fun _ => Safe.pure fun _ => le_refl _) fun hpos => ?_
  refine Safe.get.bind fun db hdb => ?_
  have hstored : ∀ stored, (stored ≠ .energy → number.Rounded) → Safe Db.Solvent (do
      let pair := taken ((db.planets p).stock stored) number
      modify fun db => db.setPlanet p ((db.planets p).setStock stored pair.1)
      return pair.2 : Act Numeric) fun back => stored ≠ .energy → 0 ≤ back.value := by
    intro stored hnumber
    refine (Safe.modify fun state hstate => ?_).bind fun _ _ => Safe.pure fun htype => ?_
    · refine hstate.setPlanet ?_ p
      exact (hstate.planets p).setStock fun htype => left_nonneg (hnumber htype)
    · exact taken_nonneg ((hdb.planets p).stock htype) hpos
  cases type with
  | other => exact Safe.pure fun _ => le_refl _
  | money =>
      cases (db.planets p).user with
      | none => exact Safe.pure fun _ => le_refl _
      | some u =>
          refine (Safe.modify fun state hstate => ?_).bind fun _ _ => Safe.pure fun _ => ?_
          · exact hstate.setMoney (left_nonneg (hnumber (by decide))) u
          · exact taken_nonneg (hdb.money u) hpos
  | ore => exact hstored .ore hnumber
  | crystal => exact hstored .crystal hnumber
  | population => exact hstored .population hnumber
  | energy => exact hstored .energy hnumber

theorem grown_nonneg {old maximum : ℤ} {number added : Numeric} (hold : 0 ≤ old)
    (hmaximum : 0 ≤ maximum) (hadded : 0 ≤ added.value) :
    0 ≤ (given old maximum number added).1 := by
  unfold given
  split
  · exact hmaximum
  · exact Numeric.toI_nonneg (Numeric.value_add_nonneg (Int.cast_nonneg hold) hadded)

theorem back_nonneg (old maximum amount : ℤ) :
    0 ≤ (given old maximum (amount : Numeric) (amount : Numeric)).2.value := by
  unfold given
  simp only [Numeric.int_add_int, Numeric.int_sub_int, Numeric.le_iff, Numeric.value_int,
    Int.cast_le]
  split
  · have hroom : 0 ≤ amount + old - maximum := by omega
    exact Int.cast_nonneg hroom
  · exact le_refl _

/-- What comes back of an amount is not negative. -/
theorem give_solvent (p : PlanetId) (type : Resource) (number : Numeric) :
    Safe Db.Solvent (give p type number) fun back =>
      ∀ amount : ℤ, number = amount → 0 ≤ back.value := by
  unfold give
  refine Safe.ite (fun _ => Safe.pure fun _ _ => le_refl _) fun hnumber => ?_
  have hpos : 0 ≤ number.value := le_of_lt (Numeric.not_le_iff.mp hnumber)
  refine Safe.get.bind fun db hdb => ?_
  have hstored : ∀ stored, Safe Db.Solvent (do
      let planet := db.planets p
      let added := if stored = .ore then .int number.toI else number
      let pair := given (planet.stock stored) (planet.maximum stored) number added
      modify fun db => db.setPlanet p ((db.planets p).setStock stored pair.1)
      return pair.2 : Act Numeric) fun back => ∀ amount : ℤ, number = amount → 0 ≤ back.value := by
    intro stored
    have hadded : 0 ≤ (if stored = .ore then Numeric.int number.toI else number).value := by
      split
      · exact Int.cast_nonneg (Numeric.toI_nonneg hpos)
      · exact hpos
    refine (Safe.modify fun state hstate => ?_).bind fun _ _ => Safe.pure ?_
    · refine hstate.setPlanet ((hstate.planets p).setStock fun htype => ?_) p
      refine grown_nonneg ((hdb.planets p).stock htype) ?_ hadded
      have hplanet := hdb.planets p
      cases stored with
      | ore => exact hplanet.maxore
      | crystal => exact hplanet.maxcrystal
      | population => exact hplanet.maxpopulation
      | energy => exact absurd rfl htype
      | money => exact le_refl _
      | other => exact le_refl _
    · rintro amount rfl
      have hsame : (if stored = .ore then Numeric.int (amount : Numeric).toI else (amount : Numeric)) =
          (amount : Numeric) := by split <;> rfl
      rw [hsame]
      exact back_nonneg _ _ amount
  cases type with
  | other => exact Safe.pure fun _ _ => hpos
  | money =>
      cases (db.planets p).user with
      | none => exact Safe.pure fun _ _ => hpos
      | some u =>
          refine (Safe.modify fun state hstate => ?_).bind fun _ _ => Safe.pure fun _ _ => le_refl _
          refine hstate.setMoney (Numeric.toI_nonneg ?_) u
          exact Numeric.value_add_nonneg (Int.cast_nonneg (hstate.money u)) hpos
  | ore => exact hstored .ore
  | crystal => exact hstored .crystal
  | population => exact hstored .population
  | energy => exact hstored .energy

/-! ## Claiming -/

theorem createBuildingJob_solvent (w : World) (p : PlanetId) (name : BuildingName) :
    Safe Db.Solvent (createBuildingJob w p name) anything := by
  refine fun db hdb => ⟨?_, fun _ _ => trivial⟩
  obtain hsame | ⟨type, u, -, -, hafford, hordered⟩ := createBuildingJob_outcome w p name db
  · rw [hsame]
    exact hdb
  · obtain ⟨hore, hcrystal, hpopulation, hmoney⟩ := hafford
    have hplanet := hdb.planets p
    have hpaid : (paid db p u type).Solvent := by
      refine (hdb.setMoney (sub_nonneg.mpr hmoney) u).setPlanet ?_ p
      exact { hplanet with
        ore := sub_nonneg.mpr hore
        crystal := sub_nonneg.mpr hcrystal
        population := sub_nonneg.mpr hpopulation }
    rw [hordered]
    exact hpaid.of_eq rfl rfl rfl

theorem claim_solvent (w : World) (p : PlanetId) (u : UserId) :
    Safe Db.Solvent (claim w p u) anything := by
  refine claim_safe (fun db hdb => hdb.setPlanet ?_ p) (createBuildingJob_solvent w p)
    (fun db hdb => hdb.setPlanet ?_ p) (Resque.enqueueIn_solvent 30 _)
  · exact (hdb.planets p).of_eq rfl rfl rfl rfl rfl rfl
  · exact (hdb.planets p).of_eq rfl rfl rfl rfl rfl rfl

end Planet

end Mmog

import Mathlib.Tactic.FinCases
import Mmog.Game.Build
import Mmog.Model.Creation
import Mmog.Model.Seeds
import Mmog.Ruby.Run

/-!
# Depots

What the completion of a depot does to the room of a planet.  The room grows
with the production of the depot, so that a run of completions can only go
wrong where it starts, with the room the planet was created with.
-/

namespace Mmog

open Ruby Action Game

namespace Planet

variable {rules : Rules} {p : PlanetId} {game : Game}

/-- The one planet has as much room as the other, and what fits into the other fits. -/
structure Roomier (old new : Planet) : Prop where
  ore : old.maxore ≤ new.maxore
  crystal : old.maxcrystal ≤ new.maxcrystal
  energy : old.maxenergy ≤ new.maxenergy
  stored : (old.ore ≤ old.maxore → new.ore ≤ new.maxore) ∧ (old.crystal ≤ old.maxcrystal → new.crystal ≤ new.maxcrystal) ∧
    (old.energy ≤ old.maxenergy → new.energy ≤ new.maxenergy)

/-! ## The size of a store -/

/-- A store of this size on a planet without a depot, after a depot. -/
def storage (planet : Planet) (prodSize : ℕ) (stock : ℤ) : ℤ :=
  (Numeric.int (stock * (prodSize / 100 : ℕ)) * planet.spec.storage).toI

theorem spec_storage_nonneg (planet : Planet) : 0 ≤ planet.spec.storage.value := by
  have hone : (0 : ℚ) ≤ (1 : Numeric).value := by decide
  have hlit : 0 ≤ (Numeric.lit (13 / 10)).value := Binary64.round_nonneg (by norm_num)
  unfold spec
  split_ifs <;> first | exact hone | exact hlit

theorem storage_mono (planet : Planet) {prodSize other : ℕ} (hle : prodSize ≤ other) {stock : ℤ} (hstock : 0 ≤ stock) :
    planet.storage prodSize stock ≤ planet.storage other stock := by
  have hdiv : ((prodSize / 100 : ℕ) : ℤ) ≤ (other / 100 : ℕ) := by exact_mod_cast Nat.div_le_div_right hle
  exact Numeric.toI_mono (Numeric.value_int_mul_mono (mul_le_mul_of_nonneg_left hdiv hstock) planet.spec_storage_nonneg)

theorem start_nonneg (planet : Planet) :
    0 ≤ planet.start.maxore ∧ 0 ≤ planet.start.maxcrystal ∧ 0 ≤ planet.start.maxenergy := by
  unfold start
  split_ifs <;> decide

/-- A depot that makes more gives at least as much room. -/
theorem depotSizeIncrease_roomier (planet : Planet) {prodSize other : ℕ} (hle : prodSize ≤ other) :
    (depotSizeIncrease planet prodSize).Roomier (depotSizeIncrease planet other) := by
  obtain ⟨hore, hcrystal, henergy⟩ := planet.start_nonneg
  have hmaxore := planet.storage_mono hle hore
  have hmaxcrystal := planet.storage_mono hle hcrystal
  have hmaxenergy := planet.storage_mono hle henergy
  exact ⟨hmaxore, hmaxcrystal, hmaxenergy, fun hfit => hfit.trans hmaxore, fun hfit => hfit.trans hmaxcrystal,
    fun hfit => hfit.trans hmaxenergy⟩

/-! ## Completions -/

/-- A building is completed by `build_building`, which says so. -/
def complete (rules : Rules) (p : PlanetId) (game : Game) (buildingtype : ℕ) : Option Game :=
  match (buildBuilding rules p buildingtype).run game with
  | .ok true next => some next
  | _ => none

theorem complete_eq_some {buildingtype : ℕ} {next : Game} (hnext : complete rules p game buildingtype = some next) :
    (buildBuilding rules p buildingtype).run game = .ok true next := by
  unfold complete at hnext
  split at hnext
  · cases hnext
    assumption
  · cases hnext

/-- The planet after the completion of a depot. -/
theorem complete_depot {buildingtype : ℕ} {type : Buildingtype} {next : Game}
    (htype : rules.buildingtype buildingtype = some type) (hdepot : type.name = .depot)
    (hnext : complete rules p game buildingtype = some next) :
    next.db.planets p = depotSizeIncrease { game.db.planets p with underConstruction := 0 }
      (rules.production buildingtype) := by
  have hid : type.id = buildingtype := by
    have hfound := List.find?_some htype
    exact of_decide_eq_true hfound
  have hrun := complete_eq_some hnext
  have hfinish : ∀ buildings (game : Game), (finishBuilding rules p type buildings).run game = .ok true next →
      next.db.planets p = depotSizeIncrease (game.db.planets p) (rules.production type.id) := by
    intro buildings game hrun
    have hdb := finishBuilding_db rules p type buildings game
    rw [hrun] at hdb
    change next.db = _ at hdb
    rw [hdb, finished, if_pos hdepot]
    exact if_pos rfl
  have hflag : (game.setDb (constructing game.db p 0)).db.planets p =
      { game.db.planets p with underConstruction := 0 } := if_pos rfl
  rw [buildBuilding, run_bind_modify, htype] at hrun
  dsimp only at hrun
  rw [run_bind_get] at hrun
  rw [← hflag, ← hid]
  split at hrun
  case h_1 => cases hrun
  case h_2 buildings hupgrade => exact hfinish buildings _ hrun
  case h_3 =>
    split at hrun
    · exact hfinish _ _ hrun
    · cases hrun

/-! ## Runs of completions -/

/-- A completion takes no room away. -/
def Grows (rules : Rules) (p : PlanetId) (game : Game) (buildingtype : ℕ) : Prop :=
  ∀ next, complete rules p game buildingtype = some next → (game.db.planets p).Roomier (next.db.planets p)

/-- The types are those of depots, none of which makes less than the one before. -/
structure Depots (rules : Rules) (types : List ℕ) : Prop where
  named : ∀ id ∈ types, ∃ type, rules.buildingtype id = some type ∧ type.name = .depot
  sorted : (types.map rules.production).Pairwise (· ≤ ·)
  large : ∀ id ∈ types, 200 ≤ rules.production id

theorem Depots.tail {id : ℕ} {types : List ℕ} (hdepots : Depots rules (id :: types)) : Depots rules types :=
  ⟨fun other hother => hdepots.named other (List.mem_cons_of_mem id hother), (List.pairwise_cons.mp hdepots.sorted).2,
    fun other hother => hdepots.large other (List.mem_cons_of_mem id hother)⟩

theorem grows_iff {id : ℕ} {type : Buildingtype} {next : Game} (htype : rules.buildingtype id = some type)
    (hdepot : type.name = .depot) (hnext : complete rules p game id = some next) :
    Grows rules p game id ↔
      (game.db.planets p).Roomier (depotSizeIncrease (game.db.planets p) (rules.production id)) := by
  have hplanet := complete_depot htype hdepot hnext
  constructor
  · intro hgrows
    have hroom := hgrows next hnext
    rw [hplanet] at hroom
    exact ⟨hroom.ore, hroom.crystal, hroom.energy, hroom.stored⟩
  · intro hroom other hother
    obtain rfl : next = other := Option.some.inj (hnext.symm.trans hother)
    rw [hplanet]
    exact ⟨hroom.ore, hroom.crystal, hroom.energy, hroom.stored⟩

/-- After the first depot the room only grows, whatever it was before. -/
theorem along_grows_iff {types : List ℕ} (hdepots : Depots rules types) {final : Game}
    (hrun : run (complete rules p) game types = some final) :
    Along (complete rules p) (Grows rules p) game types ↔
      ∀ id ∈ types.head?, (game.db.planets p).Roomier (depotSizeIncrease (game.db.planets p) (rules.production id)) := by
  induction types generalizing game with
  | nil => exact iff_of_true trivial nofun
  | cons id types ih =>
      obtain ⟨next, hnext, hrest⟩ := run_cons hrun
      obtain ⟨type, htype, hdepot⟩ := hdepots.named id List.mem_cons_self
      have hgrows := grows_iff htype hdepot hnext
      have hplanet := complete_depot htype hdepot hnext
      constructor
      · rintro ⟨hfirst, -⟩ other hother
        cases hother
        exact hgrows.mp hfirst
      · intro hhead
        refine ⟨hgrows.mpr (hhead id rfl), fun other hother => ?_⟩
        obtain rfl : next = other := Option.some.inj (hnext.symm.trans hother)
        refine (ih hdepots.tail hrest).mpr fun later hlater => ?_
        have hle : rules.production id ≤ rules.production later :=
          (List.pairwise_cons.mp hdepots.sorted).1 _ (List.mem_map_of_mem (List.mem_of_mem_head? hlater))
        have hroom := depotSizeIncrease_roomier { game.db.planets p with underConstruction := 0 } hle
        rw [hplanet]
        exact ⟨hroom.ore, hroom.crystal, hroom.energy, hroom.stored⟩

/-! ## The room at the creation -/

/-- The kind and the room of the planet are those that `init` gave it. -/
def AsCreated (planet : Planet) : Prop :=
  ∃ special size kind crystalSize,
    planet.special = (init special size kind crystalSize).special ∧
      planet.maxore = (init special size kind crystalSize).maxore ∧
      planet.maxcrystal = (init special size kind crystalSize).maxcrystal ∧
      planet.maxenergy = (init special size kind crystalSize).maxenergy

/-- The room that a planet of this kind is created with. -/
def createdRoom (special : ℤ) : Start :=
  if special = 4 then ⟨75, 5, 175⟩ else if special = 6 then ⟨200, 5, 400⟩ else ⟨100, 1, 200⟩

theorem AsCreated.room {planet : Planet} (hcreated : AsCreated planet) :
    planet.maxore = (createdRoom planet.special).maxore ∧
      planet.maxcrystal = (createdRoom planet.special).maxcrystal ∧
      planet.maxenergy = (createdRoom planet.special).maxenergy := by
  obtain ⟨special, size, kind, crystalSize, hspecial, hmaxore, hmaxcrystal, hmaxenergy⟩ := hcreated
  rw [hspecial, hmaxore, hmaxcrystal, hmaxenergy]
  cases special with
  | false => exact ⟨rfl, rfl, rfl⟩
  | true => fin_cases kind <;> exact ⟨rfl, rfl, rfl⟩

theorem storage_of_ne {planet : Planet} (hspecial : planet.special ≠ 6) (prodSize : ℕ) (stock : ℤ) :
    planet.storage prodSize stock = stock * (prodSize / 100 : ℕ) := by
  have hone : planet.spec.storage = 1 := by
    unfold spec
    split_ifs <;> rfl
  rw [storage, hone]
  exact mul_one _

/-- The first depot of a new planet has less room than `init` gave it only for a crystal planet
and a small depot. -/
theorem AsCreated.roomier_iff {planet : Planet} (hcreated : AsCreated planet) {prodSize : ℕ}
    (hlarge : 200 ≤ prodSize) :
    planet.Roomier (depotSizeIncrease planet prodSize) ↔ planet.special ≠ 4 ∨ 500 ≤ prodSize := by
  obtain ⟨hmaxore, hmaxcrystal, hmaxenergy⟩ := hcreated.room
  have hroomier : planet.Roomier (depotSizeIncrease planet prodSize) ↔
      planet.maxore ≤ planet.storage prodSize planet.start.maxore ∧
        planet.maxcrystal ≤ planet.storage prodSize planet.start.maxcrystal ∧
        planet.maxenergy ≤ planet.storage prodSize planet.start.maxenergy :=
    ⟨fun hroom => ⟨hroom.ore, hroom.crystal, hroom.energy⟩, fun ⟨hore, hcrystal, henergy⟩ =>
      ⟨hore, hcrystal, henergy, fun hfit => hfit.trans hore, fun hfit => hfit.trans hcrystal,
        fun hfit => hfit.trans henergy⟩⟩
  rw [hroomier, hmaxore, hmaxcrystal, hmaxenergy]
  by_cases hstorage : planet.special = 6
  case pos =>
    -- even the smallest depot has room for more than was there
    have hstart : planet.start = ⟨200, 5, 400⟩ := by rw [start, hstorage]; rfl
    have hfactor : planet.spec.storage = Numeric.lit (13 / 10) := by rw [spec, hstorage]; rfl
    have hsmall : ∀ {stock least : ℤ}, 0 ≤ stock → least ≤ (Numeric.int (stock * 2) * Numeric.lit (13 / 10)).toI →
        least ≤ planet.storage prodSize stock := by
      intro stock least hstock hleast
      have hmono := planet.storage_mono hlarge hstock
      rw [storage, hfactor] at hmono
      exact hleast.trans hmono
    rw [hstart, hstorage]
    exact iff_of_true ⟨hsmall (by decide) (by decide +kernel), hsmall (by decide) (by decide +kernel),
      hsmall (by decide) (by decide +kernel)⟩ (.inl (by decide))
  case neg =>
    have hdepot : (2 : ℤ) ≤ (prodSize / 100 : ℕ) := by omega
    have hfive : 500 ≤ prodSize ↔ (5 : ℤ) ≤ (prodSize / 100 : ℕ) := by omega
    rw [storage_of_ne hstorage, storage_of_ne hstorage, storage_of_ne hstorage, hfive]
    generalize ((prodSize / 100 : ℕ) : ℤ) = size at hdepot hfive
    by_cases hcrystal : planet.special = 4
    case pos =>
      -- `calc_spec` has the base of a crystal planet in the branch of another kind
      have hstart : planet.start = ⟨100, 1, 200⟩ := by rw [start, hcrystal]; rfl
      have hroom : createdRoom 4 = ⟨75, 5, 175⟩ := rfl
      rw [hstart, hcrystal, hroom]
      dsimp only
      constructor
      · rintro ⟨-, hroom, -⟩
        exact .inr (by rwa [one_mul] at hroom)
      · rintro (hne | hlarge)
        · exact absurd rfl hne
        · omega
    case neg =>
      unfold start createdRoom
      rw [if_neg hcrystal, if_neg hstorage]
      refine iff_of_true ?_ (.inl hcrystal)
      split <;> dsimp only <;> omega

/-- Depots never take room away, except the first one of a crystal planet if it is a small one. -/
theorem depots_grow_iff (rules : Rules) (p : PlanetId) {game final : Game} {types : List ℕ}
    (hcreated : AsCreated (game.db.planets p)) (hdepots : Depots rules types)
    (hrun : run (complete rules p) game types = some final) :
    Along (complete rules p) (Grows rules p) game types ↔
      (game.db.planets p).special ≠ 4 ∨ ∀ id ∈ types.head?, 500 ≤ rules.production id := by
  rw [along_grows_iff hdepots hrun]
  cases types with
  | nil => exact iff_of_true nofun (.inr nofun)
  | cons id types =>
      have hlarge := hdepots.large id List.mem_cons_self
      constructor
      · intro hhead
        refine ((hcreated.roomier_iff hlarge).mp (hhead id rfl)).imp_right ?_
        rintro hfirst other hother
        cases hother
        exact hfirst
      · rintro hcondition other hother
        cases hother
        exact (hcreated.roomier_iff hlarge).mpr (hcondition.imp_right fun hfirst => hfirst id rfl)

/-- A new planet of this kind, which belongs to user 1. -/
def depotGame (kind : Fin 7) : Game :=
  Seeds.game { Seeds.start with planets := fun _ => { init true 20000 kind 10000 with user := some 1 } }

theorem depotGame_created (kind : Fin 7) : AsCreated ((depotGame kind).db.planets 1) :=
  ⟨true, 20000, kind, 10000, rfl, rfl, rfl, rfl⟩

theorem depots_first : Depots Seeds.rules [40] where
  named := by decide
  sorted := List.pairwise_singleton ..
  large := by decide

theorem depots_grow_iff_credit_planet :
    Along (complete Seeds.rules 1) (Grows Seeds.rules 1) (depotGame 2) [40] := by
  have hcompleted : (run (complete Seeds.rules 1) (depotGame 2) [40]).isSome = true := by decide
  obtain ⟨final, hrun⟩ := Option.isSome_iff_exists.mp hcompleted
  exact (depots_grow_iff Seeds.rules 1 (depotGame_created 2) depots_first hrun).mpr (.inl (by decide))

/-- The first depot of a crystal planet leaves room for 2 crystals where there was room for 5. -/
theorem depot_shrinks :
    ¬∀ (rules : Rules) (p : PlanetId) (game final : Game) (types : List ℕ), AsCreated (game.db.planets p) →
      Depots rules types → run (complete rules p) game types = some final →
        Along (complete rules p) (Grows rules p) game types := by
  intro hall
  have hcompleted : (complete Seeds.rules 1 (depotGame 3) 40).isSome = true := by decide
  obtain ⟨final, hfinal⟩ := Option.isSome_iff_exists.mp hcompleted
  have hrun : run (complete Seeds.rules 1) (depotGame 3) [40] = some final := by rw [run, hfinal]; rfl
  have hgrows := hall Seeds.rules 1 (depotGame 3) final [40] (depotGame_created 3) depots_first hrun
  have hcrystal := (hgrows.1 final hfinal).crystal
  have hroom : (complete Seeds.rules 1 (depotGame 3) 40).map (fun game => (game.db.planets 1).maxcrystal) = some 2 := by
    decide
  rw [hfinal, Option.map_some, Option.some.injEq] at hroom
  rw [hroom] at hcrystal
  exact absurd hcrystal (by decide)

end Planet

end Mmog

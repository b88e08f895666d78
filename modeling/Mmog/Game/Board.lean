import Mmog.Ships.Split

/-!
# The board

The part of the state that decides where fleets fly: the clock, the fleet
table, the jobs, the energy and the owners of the planets, and what users know
and belong to.  Stocks and money change without touching it.
-/

namespace Mmog

open Ruby Action

structure Board where
  now : ℕ
  owner : PlanetId → Option UserId
  energy : PlanetId → ℤ
  userSetting : UserId → UserSetting
  alliance : UserId → Option AllianceId
  fleets : Table FleetRow
  delayed : List Enqueued
  ready : List Job

def Db.board (db : Db) : Board where
  now := db.now
  owner p := (db.planets p).user
  energy p := (db.planets p).energy
  userSetting u := (db.users u).userSetting
  alliance u := (db.users u).alliance
  fleets := db.fleets
  delayed := db.delayed
  ready := db.ready

namespace Board

def setFleets (board : Board) (fleets : Table FleetRow) : Board := { board with fleets }

/-- The board with one fleet row changed. -/
def putFleet (board : Board) (id : FleetId) (row : FleetRow) : Board :=
  board.setFleets (board.fleets.put id row)

/-- The board with more jobs to come. -/
def addJobs (board : Board) (jobs : List Enqueued) : Board :=
  { board with delayed := board.delayed ++ jobs }

/-- The board without the delayed jobs that equal the given one. -/
def removeDelayed (board : Board) (job : Job) : Board :=
  { board with delayed := board.delayed.filter fun entry => entry.job ≠ job }

def setOwner (board : Board) (p : PlanetId) (user : Option UserId) : Board :=
  { board with owner := Function.update board.owner p user }

def setEnergy (board : Board) (p : PlanetId) (energy : ℤ) : Board :=
  { board with energy := Function.update board.energy p energy }

@[simp] theorem addJobs_nil (board : Board) : board.addJobs [] = board := by
  simp [addJobs]

@[simp] theorem addJobs_addJobs (board : Board) (first second : List Enqueued) :
    (board.addJobs first).addJobs second = board.addJobs (first ++ second) := by
  simp [addJobs]

theorem putFleet_self {board : Board} {id : FleetId} {row : FleetRow}
    (hget : board.fleets.get id = some row) : board.putFleet id row = board := by
  rw [putFleet, Table.put_self hget, setFleets]

@[simp] theorem putFleet_putFleet (board : Board) (id : FleetId) (first second : FleetRow) :
    (board.putFleet id first).putFleet id second = board.putFleet id second := by
  simp [putFleet, setFleets]

end Board

namespace Db

@[simp] theorem board_now (db : Db) : db.board.now = db.now := rfl
@[simp] theorem board_fleets (db : Db) : db.board.fleets = db.fleets := rfl
@[simp] theorem board_delayed (db : Db) : db.board.delayed = db.delayed := rfl
@[simp] theorem board_ready (db : Db) : db.board.ready = db.ready := rfl
theorem board_owner (db : Db) (p : PlanetId) : db.board.owner p = (db.planets p).user := rfl
theorem board_energy (db : Db) (p : PlanetId) : db.board.energy p = (db.planets p).energy := rfl

theorem board_setMoney (db : Db) (u : UserId) (money : ℤ) : (db.setMoney u money).board = db.board := by
  have husers : ∀ v, ((db.setMoney u money).users v).userSetting = (db.users v).userSetting ∧
      ((db.setMoney u money).users v).alliance = (db.users v).alliance := by
    intro v
    unfold setMoney
    dsimp only
    split <;> simp_all
  unfold board
  congr 1
  · exact funext fun v => (husers v).1
  · exact funext fun v => (husers v).2

theorem board_setPlanet (db : Db) (p : PlanetId) (planet : Planet) :
    (db.setPlanet p planet).board =
      (db.board.setOwner p planet.user).setEnergy p planet.energy := by
  unfold board setPlanet Board.setEnergy Board.setOwner
  congr 1 <;> funext q <;> by_cases heq : q = p <;> simp [heq]

theorem board_setPlanet_of_eq (db : Db) (p : PlanetId) {planet : Planet}
    (huser : planet.user = (db.planets p).user) (henergy : planet.energy = (db.planets p).energy) :
    (db.setPlanet p planet).board = db.board := by
  rw [board_setPlanet, huser, henergy, ← board_owner, ← board_energy]
  unfold Board.setEnergy Board.setOwner
  dsimp only
  rw [Function.update_eq_self, Function.update_eq_self]

end Db

/-- The stocks of a planet fit its stores, whose size is bounded. -/
structure Planet.Stocked (planet : Planet) : Prop where
  ore_nonneg : 0 ≤ planet.ore
  ore_le : planet.ore ≤ planet.maxore
  maxore_le : planet.maxore ≤ 2 ^ 40
  crystal_nonneg : 0 ≤ planet.crystal
  crystal_le : planet.crystal ≤ planet.maxcrystal
  maxcrystal_le : planet.maxcrystal ≤ 2 ^ 40

/-- Every planet is stocked and no user is in debt. -/
structure Db.Stocked (db : Db) : Prop where
  planets : ∀ p, (db.planets p).Stocked
  money : ∀ u, 0 ≤ (db.users u).money

/-- Only the stocks and the stores count. -/
theorem Planet.Stocked.of_eq {planet other : Planet} (hplanet : planet.Stocked)
    (hore : other.ore = planet.ore) (hmaxore : other.maxore = planet.maxore)
    (hcrystal : other.crystal = planet.crystal) (hmaxcrystal : other.maxcrystal = planet.maxcrystal) :
    other.Stocked := by
  constructor
  · exact hore ▸ hplanet.ore_nonneg
  · exact hore ▸ hmaxore ▸ hplanet.ore_le
  · exact hmaxore ▸ hplanet.maxore_le
  · exact hcrystal ▸ hplanet.crystal_nonneg
  · exact hcrystal ▸ hmaxcrystal ▸ hplanet.crystal_le
  · exact hmaxcrystal ▸ hplanet.maxcrystal_le

namespace Db.Stocked

variable {db : Db}

theorem setPlanet (hdb : db.Stocked) {planet : Planet} (hplanet : planet.Stocked) (p : PlanetId) :
    (db.setPlanet p planet).Stocked := by
  refine ⟨fun q => ?_, hdb.money⟩
  rw [Db.setPlanet]
  dsimp only
  split
  · exact hplanet
  · exact hdb.planets q

theorem setMoney (hdb : db.Stocked) {money : ℤ} (hmoney : 0 ≤ money) (u : UserId) :
    (db.setMoney u money).Stocked := by
  refine ⟨hdb.planets, fun v => ?_⟩
  rw [Db.setMoney]
  dsimp only
  split
  · exact hmoney
  · exact hdb.money v

theorem setFleets (hdb : db.Stocked) {t : Table FleetRow} : (db.setFleets t).Stocked :=
  ⟨hdb.planets, hdb.money⟩

end Db.Stocked

namespace Planet

theorem user_setStock (type : Resource) (n : ℤ) (planet : Planet) :
    (planet.setStock type n).user = planet.user := by
  cases type <;> rfl

theorem Stocked.setOre {planet : Planet} (hplanet : planet.Stocked) {n : ℤ} (hn : 0 ≤ n)
    (hle : n ≤ planet.maxore) : (planet.setStock .ore n).Stocked :=
  ⟨hn, hle, hplanet.maxore_le, hplanet.crystal_nonneg, hplanet.crystal_le, hplanet.maxcrystal_le⟩

theorem Stocked.setCrystal {planet : Planet} (hplanet : planet.Stocked) {n : ℤ} (hn : 0 ≤ n)
    (hle : n ≤ planet.maxcrystal) : (planet.setStock .crystal n).Stocked :=
  ⟨hplanet.ore_nonneg, hplanet.ore_le, hplanet.maxore_le, hn, hle, hplanet.maxcrystal_le⟩

/-- The stocks that are loaded and unloaded. -/
def Loadable (type : Resource) : Prop := type = .ore ∨ type = .crystal ∨ type = .money

/-- What a planet gave away: no more than it was asked for, and not less than nothing. -/
structure Took (db next : Db) (number back : Numeric) : Prop where
  board : next.board = db.board
  le : back.value ≤ max number.value 0
  nonneg : db.Stocked → 0 ≤ back.value
  stocked : db.Stocked → number.Rounded → next.Stocked

theorem taken_le (old : ℤ) (number : Numeric) : (taken old number).2.value ≤ max number.value 0 := by
  unfold taken
  split
  · exact le_max_of_le_left (le_of_lt ‹_›)
  · exact le_max_left _ _

theorem taken_nonneg {old : ℤ} {number : Numeric} (hold : 0 ≤ old) (hnumber : ¬ number ≤ 0) :
    0 ≤ (taken old number).2.value := by
  unfold taken
  split
  · exact Int.cast_nonneg hold
  · exact le_of_lt (Numeric.not_le_iff.mp hnumber)

theorem left_nonneg {old : ℤ} {number : Numeric} (hnumber : number.Rounded) :
    0 ≤ (taken old number).1 := by
  unfold taken
  split
  · exact le_refl _
  · rename_i hrest
    rw [Numeric.not_lt_iff, Numeric.le_iff, Numeric.value_int] at hrest
    exact Numeric.toI_sub_nonneg hnumber hrest

/-- Taking leaves no more than there was. -/
theorem left_le {old : ℤ} {number : Numeric} (hold : 0 ≤ old) (hbound : old < 2 ^ 53)
    (hnumber : ¬ number ≤ 0) : (taken old number).1 ≤ old := by
  unfold taken
  split
  · exact hold
  · exact Numeric.toI_sub_le hold hbound (Numeric.not_le_iff.mp hnumber).le

/-- Taking a loadable stock always returns. -/
theorem take_took (p : PlanetId) {type : Resource} (htype : Loadable type) (number : Numeric)
    (db : Db) : ∃ back next, (take p type number).run db = .ok back next ∧
      Took db next number back := by
  unfold take
  have hnothing : Took db db number 0 :=
    ⟨rfl, le_max_right _ _, fun _ => le_refl _, fun hdb _ => hdb⟩
  by_cases hnumber : number ≤ 0
  · rw [if_pos hnumber]
    exact ⟨_, _, rfl, hnothing⟩
  · rw [if_neg hnumber]
    rcases htype with rfl | rfl | rfl
    · refine ⟨_, _, rfl, Db.board_setPlanet_of_eq _ _ rfl rfl, taken_le _ _,
        fun hdb => taken_nonneg (hdb.planets p).ore_nonneg hnumber, fun hdb hrounded => ?_⟩
      have hplanet := hdb.planets p
      have hbound : (db.planets p).ore < 2 ^ 53 :=
        (hplanet.ore_le.trans hplanet.maxore_le).trans_lt (by norm_num)
      exact hdb.setPlanet (hplanet.setOre (left_nonneg hrounded)
        ((left_le hplanet.ore_nonneg hbound hnumber).trans hplanet.ore_le)) p
    · refine ⟨_, _, rfl, Db.board_setPlanet_of_eq _ _ rfl rfl, taken_le _ _,
        fun hdb => taken_nonneg (hdb.planets p).crystal_nonneg hnumber, fun hdb hrounded => ?_⟩
      have hplanet := hdb.planets p
      have hbound : (db.planets p).crystal < 2 ^ 53 :=
        (hplanet.crystal_le.trans hplanet.maxcrystal_le).trans_lt (by norm_num)
      exact hdb.setPlanet (hplanet.setCrystal (left_nonneg hrounded)
        ((left_le hplanet.crystal_nonneg hbound hnumber).trans hplanet.crystal_le)) p
    · simp only [run_bind_get]
      cases (db.planets p).user with
      | none => exact ⟨_, _, rfl, hnothing⟩
      | some u =>
          exact ⟨_, _, rfl, Db.board_setMoney _ _ _, taken_le _ _,
            fun hdb => taken_nonneg (hdb.money u) hnumber,
            fun hdb hrounded => hdb.setMoney (left_nonneg hrounded) u⟩

/-- What is left of a planet's energy when some is taken. -/
def energyAfter (energy : ℤ) (number : Numeric) : ℤ :=
  if number ≤ 0 then energy else (taken energy number).1

theorem take_energy (p : PlanetId) (number : Numeric) (db : Db) :
    ∃ back next, (take p .energy number).run db = .ok back next ∧
      next.board = db.board.setEnergy p (energyAfter (db.planets p).energy number) ∧
      (db.Stocked → next.Stocked) := by
  unfold take energyAfter Board.setEnergy
  by_cases hnumber : number ≤ 0
  · rw [if_pos hnumber, if_pos hnumber]
    refine ⟨_, _, rfl, ?_, id⟩
    rw [← Db.board_energy, Function.update_eq_self]
  · rw [if_neg hnumber, if_neg hnumber]
    refine ⟨_, _, rfl, ?_, fun hdb => hdb.setPlanet ?_ p⟩
    swap
    · exact (hdb.planets p).of_eq rfl rfl rfl rfl
    rw [Db.board_setPlanet, user_setStock, ← Db.board_owner]
    unfold Board.setEnergy Board.setOwner
    dsimp only
    rw [Function.update_eq_self]
    rfl

/-- What came back from giving an amount to a planet: no more than the amount. -/
structure Gave (db next : Db) (amount back : ℤ) : Prop where
  board : next.board = db.board
  bounds : db.Stocked → 0 ≤ back ∧ back ≤ max amount 0
  stocked : db.Stocked → next.Stocked

theorem given_int (old maximum : ℤ) {amount : ℤ} (hamount : 0 < amount) :
    ∃ grown back : ℤ, given old maximum amount amount = (grown, (back : Numeric)) ∧
      (0 ≤ old → old ≤ maximum →
        (0 ≤ back ∧ back ≤ max amount 0) ∧ 0 ≤ grown ∧ grown ≤ maximum) := by
  unfold given
  simp only [Numeric.int_add_int, Numeric.int_sub_int, Numeric.le_iff, Numeric.value_int,
    Int.cast_le]
  split
  · exact ⟨_, _, rfl, fun _ _ => by omega⟩
  · refine ⟨old + amount, 0, rfl, fun _ _ => ?_⟩
    omega

/-- Giving an amount of a loadable stock always returns an amount. -/
theorem give_gave (p : PlanetId) {type : Resource} (htype : Loadable type) (amount : ℤ) (db : Db) :
    ∃ (back : ℤ) (next : Db), (give p type amount).run db = .ok (back : Numeric) next ∧
      Gave db next amount back := by
  unfold give
  by_cases hnumber : (amount : Numeric) ≤ 0
  · rw [if_pos hnumber]
    exact ⟨0, _, rfl, rfl, fun _ => ⟨le_refl _, le_max_right _ _⟩, id⟩
  have hamount : 0 < amount := by
    rw [Numeric.not_le_iff, Numeric.lt_iff, Numeric.value_zero, Numeric.value_int] at hnumber
    exact_mod_cast hnumber
  rw [if_neg hnumber]
  rcases htype with rfl | rfl | rfl
  · obtain ⟨grown, back, hgiven, hbounds⟩ := given_int (db.planets p).ore
      (db.planets p).maxore hamount
    refine ⟨back, db.setPlanet p ((db.planets p).setStock .ore grown), ?_,
      Db.board_setPlanet_of_eq _ _ rfl rfl, fun hdb => ?_, fun hdb => ?_⟩
    · rw [run_bind_get]
      simp only [if_pos, stock, maximum, Numeric.toI_int, hgiven]
      rfl
    · exact (hbounds (hdb.planets p).ore_nonneg (hdb.planets p).ore_le).1
    · have hplanet := hdb.planets p
      obtain ⟨-, hgrown⟩ := hbounds hplanet.ore_nonneg hplanet.ore_le
      exact hdb.setPlanet (hplanet.setOre hgrown.1 hgrown.2) p
  · obtain ⟨grown, back, hgiven, hbounds⟩ := given_int (db.planets p).crystal
      (db.planets p).maxcrystal hamount
    refine ⟨back, db.setPlanet p ((db.planets p).setStock .crystal grown), ?_,
      Db.board_setPlanet_of_eq _ _ rfl rfl, fun hdb => ?_, fun hdb => ?_⟩
    · rw [run_bind_get]
      simp only [reduceCtorEq, if_false, stock, maximum, hgiven]
      rfl
    · exact (hbounds (hdb.planets p).crystal_nonneg (hdb.planets p).crystal_le).1
    · have hplanet := hdb.planets p
      obtain ⟨-, hgrown⟩ := hbounds hplanet.crystal_nonneg hplanet.crystal_le
      exact hdb.setPlanet (hplanet.setCrystal hgrown.1 hgrown.2) p
  · simp only [run_bind_get]
    cases (db.planets p).user with
    | none => exact ⟨amount, _, rfl, rfl, fun _ => ⟨hamount.le, le_max_left _ _⟩, id⟩
    | some u =>
        refine ⟨0, _, rfl, Db.board_setMoney _ _ _, fun _ => ⟨le_refl _, le_max_right _ _⟩,
          fun hdb => hdb.setMoney ?_ u⟩
        rw [Numeric.int_add_int, Numeric.toI_int]
        have hmoney := hdb.money u
        omega

end Planet

end Mmog

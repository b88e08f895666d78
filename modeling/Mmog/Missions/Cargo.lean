import Mmog.Game.Board
import Mmog.Game.Build

/-!
# Loading, unloading and claiming

What these do to the board.  Cargo moves between fleet, planet and owner; the
board sees only the fleet's row change, and the owner of a claimed planet.
-/

namespace Mmog

open Ruby Action

namespace Fleet

def withCargo (self : Fleet) (cargo : Cargo) : Fleet := { self with toCargo := cargo }

@[simp] theorem withCargo_id (self : Fleet) (cargo : Cargo) : (self.withCargo cargo).id = self.id :=
  rfl
@[simp] theorem withCargo_toRoute (self : Fleet) (cargo : Cargo) :
    (self.withCargo cargo).toRoute = self.toRoute := rfl

theorem save_board {db : Db} {self : Fleet} {row : FleetRow}
    (hget : db.fleets.get self.id = some row) :
    ∃ next, self.save.run db = .ok ⟨⟩ next ∧
      next.board = db.board.putFleet self.id ⟨self.toAttributes, row.shipfleets⟩ ∧
      (db.Stocked → next.Stocked) :=
  ⟨_, save_apply hget, rfl, fun hdb => hdb.setFleets⟩

/-! ## Loading -/

/-- What `load_ressources` asks for, of one kind: a third of the room when not all has room. -/
def wanted (self : Fleet) (total amount : ℤ) : Numeric :=
  if self.getFreeCapacity < (total : Numeric) then self.getFreeCapacity / 3 else amount

theorem rounded_wanted (self : Fleet) (total amount : ℤ) : (self.wanted total amount).Rounded := by
  unfold wanted
  split
  · exact Numeric.rounded_div _ _
  · trivial

/-- One kind of cargo grows by no more than what was asked for. -/
def Loads (stocked : Prop) (wanted : Numeric) (old new : ℤ) : Prop :=
  ∃ got : Numeric, got.value ≤ max wanted.value 0 ∧ (stocked → 0 ≤ got.value) ∧
    new = ((old : Numeric) + got).toI

/-- The cargo that loading can leave a fleet with. -/
def LoadsTo (stocked : Prop) (self : Fleet) (cargo : Cargo) : Prop :=
  ∃ ore crystal credit : ℤ, 0 ≤ ore ∧ 0 ≤ crystal ∧ 0 ≤ credit ∧
    Loads stocked (self.wanted (ore + crystal + credit) ore) self.ore cargo.ore ∧
    Loads stocked (self.wanted (ore + crystal + credit) crystal) self.crystal cargo.crystal ∧
    Loads stocked (self.wanted (ore + crystal + credit) credit) self.credit cargo.credit

theorem LoadsTo.of_imp {stocked stocked' : Prop} {self : Fleet} {cargo : Cargo}
    (hloads : LoadsTo stocked self cargo) (himp : stocked' → stocked) :
    LoadsTo stocked' self cargo := by
  obtain ⟨ore, crystal, credit, hore, hcrystal, hcredit, hloads⟩ := hloads
  have hone : ∀ {wanted : Numeric} {old new : ℤ}, Loads stocked wanted old new →
      Loads stocked' wanted old new :=
    fun ⟨got, hle, hnonneg, hnew⟩ => ⟨got, hle, fun h => hnonneg (himp h), hnew⟩
  exact ⟨ore, crystal, credit, hore, hcrystal, hcredit, hone hloads.1, hone hloads.2.1,
    hone hloads.2.2⟩

theorem loadRessources_negative {db : Db} {self : Fleet} {ore crystal credit : ℤ}
    (planet : PlanetId) (hnegative : ore < 0 ∨ crystal < 0 ∨ credit < 0) :
    ∃ message, (self.loadRessources ore crystal credit planet).run db =
      .error (.runtimeError message) db := by
  rw [loadRessources, if_pos hnegative, run_bind_raise]
  exact ⟨_, rfl⟩

theorem loadRessources_board {db : Db} {self : Fleet} {row : FleetRow}
    (hget : db.fleets.get self.id = some row) {ore crystal credit : ℤ} (planet : PlanetId)
    (hnegative : ¬ (ore < 0 ∨ crystal < 0 ∨ credit < 0)) :
    ∃ cargo next,
      (self.loadRessources ore crystal credit planet).run db = .ok (self.withCargo cargo) next ∧
      next.board =
        db.board.putFleet self.id ⟨(self.withCargo cargo).toAttributes, row.shipfleets⟩ ∧
      LoadsTo db.Stocked self cargo ∧ (db.Stocked → next.Stocked) := by
  have hround := self.rounded_wanted (ore + crystal + credit)
  obtain ⟨gotOre, db₁, hore, took₁⟩ := Planet.take_took planet (.inl rfl)
    (self.wanted (ore + crystal + credit) ore) db
  obtain ⟨gotCrystal, db₂, hcrystal, took₂⟩ := Planet.take_took planet (.inr (.inl rfl))
    (self.wanted (ore + crystal + credit) crystal) db₁
  obtain ⟨gotCredit, db₃, hcredit, took₃⟩ := Planet.take_took planet (.inr (.inr rfl))
    (self.wanted (ore + crystal + credit) credit) db₂
  have hstocked₁ : db.Stocked → db₁.Stocked := fun hdb => took₁.stocked hdb (hround _)
  have hstocked₂ : db.Stocked → db₂.Stocked := fun hdb => took₂.stocked (hstocked₁ hdb) (hround _)
  have hboard : db₃.board = db.board := took₃.board.trans (took₂.board.trans took₁.board)
  let loaded : Cargo :=
    { ore := ((self.ore : Numeric) + gotOre).toI
      crystal := ((self.crystal : Numeric) + gotCrystal).toI
      credit := ((self.credit : Numeric) + gotCredit).toI }
  have hrow : db₃.fleets.get (self.withCargo loaded).id = some row :=
    (congrArg (Table.get · self.id) (congrArg Board.fleets hboard)).trans hget
  obtain ⟨next, hsave, hnext, hstocked⟩ := save_board hrow
  refine ⟨loaded, next, ?_, hboard ▸ hnext, ?_, fun hdb => ?_⟩
  · rw [loadRessources, if_neg hnegative]
    refine (run_bind_of_ok hore _).trans ((run_bind_of_ok hcrystal _).trans ?_)
    exact (run_bind_of_ok hcredit _).trans (run_bind_of_ok hsave _)
  · exact ⟨ore, crystal, credit, by omega, by omega, by omega,
      ⟨gotOre, took₁.le, took₁.nonneg, rfl⟩,
      ⟨gotCrystal, took₂.le, fun hdb => took₂.nonneg (hstocked₁ hdb), rfl⟩,
      ⟨gotCredit, took₃.le, fun hdb => took₃.nonneg (hstocked₂ hdb), rfl⟩⟩
  · exact hstocked (took₃.stocked (hstocked₂ hdb) (hround _))

/-! ## Unloading -/

/-- Unloading leaves no more cargo than there was. -/
def UnloadsTo (stocked : Prop) (self : Fleet) (cargo : Cargo) : Prop :=
  stocked → (0 ≤ cargo.ore ∧ cargo.ore ≤ max self.ore 0) ∧
    (0 ≤ cargo.crystal ∧ cargo.crystal ≤ max self.crystal 0) ∧
    (0 ≤ cargo.credit ∧ cargo.credit ≤ max self.credit 0)

theorem unloadRessources_board {db : Db} {self : Fleet} {row : FleetRow}
    (hget : db.fleets.get self.id = some row) (planet : PlanetId) :
    ∃ cargo next,
      (self.unloadRessources planet).run db = .ok (self.withCargo cargo) next ∧
      next.board =
        db.board.putFleet self.id ⟨(self.withCargo cargo).toAttributes, row.shipfleets⟩ ∧
      UnloadsTo db.Stocked self cargo ∧ (db.Stocked → next.Stocked) := by
  obtain ⟨backOre, db₁, hore, gave₁⟩ := Planet.give_gave planet (.inl rfl) self.ore db
  obtain ⟨backCrystal, db₂, hcrystal, gave₂⟩ :=
    Planet.give_gave planet (.inr (.inl rfl)) self.crystal db₁
  obtain ⟨backCredit, db₃, hcredit, gave₃⟩ :=
    Planet.give_gave planet (.inr (.inr rfl)) self.credit db₂
  have hstocked₂ : db.Stocked → db₂.Stocked := fun hdb => gave₂.stocked (gave₁.stocked hdb)
  have hboard : db₃.board = db.board := gave₃.board.trans (gave₂.board.trans gave₁.board)
  let unloaded : Cargo := { ore := backOre, crystal := backCrystal, credit := backCredit }
  have hrow : db₃.fleets.get (self.withCargo unloaded).id = some row :=
    (congrArg (Table.get · self.id) (congrArg Board.fleets hboard)).trans hget
  obtain ⟨next, hsave, hnext, hstocked⟩ := save_board hrow
  refine ⟨unloaded, next, ?_, hboard ▸ hnext, fun hdb => ?_, fun hdb => ?_⟩
  · rw [unloadRessources]
    refine (run_bind_of_ok hore _).trans ((run_bind_of_ok hcrystal _).trans ?_)
    exact (run_bind_of_ok hcredit _).trans (run_bind_of_ok hsave _)
  · exact ⟨gave₁.bounds hdb, gave₂.bounds (gave₁.stocked hdb), gave₃.bounds (hstocked₂ hdb)⟩
  · exact hstocked (gave₃.stocked (hstocked₂ hdb))

end Fleet

namespace Planet

/-- The jobs a planet starts by itself. -/
def PlanetJobs (jobs : List Enqueued) : Prop := ∀ entry ∈ jobs, entry.job.fleet? = none

theorem paid_board (db : Db) (p : PlanetId) (u : UserId) (type : Buildingtype) :
    (paid db p u type).board = db.board := by
  rw [← Db.board_setMoney db u ((db.users u).money - type.buildCostMoney)]
  exact Db.board_setPlanet_of_eq _ p rfl rfl

theorem paid_stocked {db : Db} (hdb : db.Stocked) {p : PlanetId} {u : UserId} {type : Buildingtype}
    (hafford : Affords db p u type) : (paid db p u type).Stocked := by
  obtain ⟨hore, hcrystal, -, hmoney⟩ := hafford
  have hplanet := hdb.planets p
  refine (hdb.setMoney (sub_nonneg.mpr hmoney) u).setPlanet ?_ p
  refine ⟨?_, ?_, hplanet.maxore_le, ?_, ?_, hplanet.maxcrystal_le⟩
  · exact sub_nonneg.mpr hore
  · exact (sub_le_self _ (Int.natCast_nonneg _)).trans hplanet.ore_le
  · exact sub_nonneg.mpr hcrystal
  · exact (sub_le_self _ (Int.natCast_nonneg _)).trans hplanet.crystal_le

/-- A job for a building is added when the planet can pay for it. -/
theorem startBuilding_board (w : World) {db : Db} {p : PlanetId} {u : UserId}
    (howner : (db.planets p).user = some u) (name : BuildingName) :
    ∃ next jobs, (startBuilding w p name).run db = .ok ⟨⟩ next ∧ PlanetJobs jobs ∧
      next.board = db.board.addJobs jobs ∧ (db.Stocked → next.Stocked) := by
  have hidle : ∀ later : Db, (constructing later p 0).board = later.board :=
    fun later => Db.board_setPlanet_of_eq later p rfl rfl
  have hstocked : ∀ later : Db, later.Stocked → (constructing later p 0).Stocked := by
    refine fun later hlater => hlater.setPlanet ?_ p
    exact (hlater.planets p).of_eq rfl rfl rfl rfl
  rw [startBuilding_run w howner name]
  obtain hsame | ⟨type, v, -, -, hafford, hordered⟩ := createBuildingJob_outcome w p name db
  · rw [hsame]
    exact ⟨_, [], rfl, List.forall_mem_nil _, (hidle db).trans (Board.addJobs_nil _).symm, hstocked db⟩
  · rw [hordered]
    refine ⟨_, [order db p type], rfl, ?_, (hidle _).trans ?_, fun hdb => hstocked _ ?_⟩
    · intro other hother
      rw [List.mem_singleton.mp hother]
      rfl
    · exact congrArg (Board.addJobs · [order db p type]) (paid_board db p v type)
    · have hpaid := paid_stocked hdb hafford
      exact ⟨hpaid.planets, hpaid.money⟩

/-- Claiming a planet without an owner sets the owner and starts jobs of the planet. -/
theorem claim_board (w : World) {db : Db} {p : PlanetId} (u : UserId)
    (howner : (db.planets p).user = none) :
    ∃ next jobs, (claim w p u).run db = .ok ⟨⟩ next ∧ PlanetJobs jobs ∧
      next.board = (db.board.setOwner p (some u)).addJobs jobs ∧
      (db.Stocked → next.Stocked) := by
  let claimed := db.setPlanet p { db.planets p with user := some u }
  have hclaimed : claimed.board = db.board.setOwner p (some u) := by
    rw [Db.board_setPlanet]
    unfold Board.setEnergy Board.setOwner
    dsimp only
    rw [← Db.board_energy, Function.update_eq_self]
  have hstocked : db.Stocked → claimed.Stocked := by
    refine fun hdb => hdb.setPlanet ?_ p
    exact (hdb.planets p).of_eq rfl rfl rfl rfl
  obtain ⟨next, ⟨jobs, hjobs, hboard, hnext⟩, hrun⟩ := claim_of_free (w := w) (u := u)
    (J := fun _ later => ∃ jobs, PlanetJobs jobs ∧ later.board = claimed.board.addJobs jobs ∧
      (claimed.Stocked → later.Stocked))
    howner ⟨[], List.forall_mem_nil _, (Board.addJobs_nil _).symm, id⟩ fun _ name later hlater => by
      obtain ⟨jobs, hjobs, hboard, hkeep⟩ := hlater
      have huser : (later.planets p).user = some u := by
        have howned := congrFun (congrArg Board.owner hboard) p
        rw [hclaimed] at howned
        have hset : Function.update db.board.owner p (some u) p = some u := Function.update_self ..
        exact howned.trans hset
      obtain ⟨started, more, hrun, hmore, hstarted, hsame⟩ := startBuilding_board w huser name
      refine ⟨started, hrun, jobs ++ more, List.forall_mem_append.mpr ⟨hjobs, hmore⟩, ?_, hsame ∘ hkeep⟩
      rw [hstarted, hboard, Board.addJobs_addJobs]
  let production : Enqueued := ⟨next.now + 30, .produceResources p⟩
  refine ⟨_, jobs ++ [production], hrun, ?_, ?_, fun hdb => ?_⟩
  · refine List.forall_mem_append.mpr ⟨hjobs, fun entry hentry => ?_⟩
    rw [List.mem_singleton.mp hentry]
    rfl
  · have hlast : ({ next with delayed := next.delayed ++ [production] } : Db).board =
        next.board.addJobs [production] := rfl
    rw [hlast, hboard, hclaimed, Board.addJobs_addJobs]
  · have hall := hnext (hstocked hdb)
    exact ⟨hall.planets, hall.money⟩

end Planet

end Mmog

import Mmog.Energy.Tick
import Mmog.Game.Build
import Mmog.Model.Saves
import Mmog.Model.Universe
import Mmog.Research.Outcome
import Mmog.Shipyard.Payment

/-!
# Lost updates

Operations on the row of a user overlap freely.  What they save adds up as long
as none saves a copy of money that is no longer there.
-/

namespace Mmog

open Ruby Action Game Planet Technology

namespace Operation

/-! ## Operations on their own -/

/-- What a headquarter makes in a tick, after its planet's stocks have grown. -/
def income (rules : Rules) (game : Game) (u : UserId) (p : PlanetId) : ℤ :=
  let planet := game.db.planets p
  let planet := { planet with ore := grow planet.ore (planet.production rules game u p .oremine) planet.maxore }
  let planet := { planet with
    population := grow planet.population (planet.production rules game u p .city) planet.maxpopulation }
  let planet := { planet with
    crystal := grow planet.crystal (planet.production rules game u p .crystalmine) planet.maxcrystal }
  planet.production rules game u p .headquarter

/-- Whether everything but the money allows that a user starts a technology. -/
def allowed (rules : Rules) (game : Game) (u : UserId) (id : TechnologyId) (row : TechnologyRow) : Bool :=
  match (rules.requires id).head? with
  | none => false
  | some first =>
      first.buildingRank ≤ (game.profiles u).researchlvl ∧ !row.maxRank? (game.ranks u id) ∧
        techRequire? rules id (game.ranks u) ∧ (game.profiles u).researching = 0

theorem takeMoney_fst (number money : ℤ) : (takeMoney number money).1.sum = -got money number := by
  unfold takeMoney got
  split
  · rfl
  · split
    · rename_i hle
      rw [min_eq_right hle]
      exact add_zero _
    · rename_i hlt
      rw [min_eq_left (not_le.mp hlt).le]
      exact add_zero _

theorem takeMoney_snd (number money : ℤ) : (takeMoney number money).2 = got money number := by
  unfold takeMoney got
  split
  · rfl
  · split
    · rename_i hle
      exact (min_eq_right hle).symm
    · rename_i hlt
      exact (min_eq_left (not_le.mp hlt).le).symm

theorem sum_giveMoney (number : ℤ) : (giveMoney number).sum = if number ≤ 0 then 0 else number := by
  unfold giveMoney
  split
  · rfl
  · exact add_zero number

variable {rules : Rules} {game : Game} {u : UserId} {p : PlanetId}

theorem holding_money (huser : (game.db.planets p).user = some u) :
    game.db.holding p .money = (game.db.users u).money := by
  rw [Db.holding, huser]
  rfl

theorem money_give (huser : (game.db.planets p).user = some u) (number : ℤ) :
    ((after ((Planet.give p .money (.int number)).run game.db)).users u).money =
      (game.db.users u).money + (giveMoney number).sum := by
  obtain ⟨back, hgive⟩ : ∃ back, (Planet.give p .money (.int number)).run
      (game.db.withHoldings p (game.db.holding p)) = .ok back _ := ⟨_, give_apply _ _ _ .money number⟩
  rw [Db.withHoldings_holding] at hgive
  rw [hgive, after_ok, Db.money_withHoldings _ huser, Function.update_self, grown, huser, holding_money huser,
    sum_giveMoney]
  split
  · rw [add_zero]
  · rfl

theorem money_take (huser : (game.db.planets p).user = some u) (number : ℤ) :
    ((after ((Planet.take p .money (.int number)).run game.db)).users u).money =
      (game.db.users u).money + (takeMoney number (game.db.users u).money).1.sum := by
  have htake : (Planet.take p .money (.int number)).run (game.db.withHoldings p (game.db.holding p)) = .ok _ _ :=
    take_apply (fun _ => Db.holding_eq_zero) .money number
  rw [Db.withHoldings_holding] at htake
  rw [htake, after_ok, Db.money_withHoldings _ huser, Function.update_self, holding_money huser, takeMoney_fst]
  rfl

theorem money_createBuildingJob (huser : (game.db.planets p).user = some u) (name : BuildingName) :
    ((after ((Planet.createBuildingJob rules.toWorld p name).run game.db)).users u).money =
      (game.db.users u).money +
        ((createBuildingJob (game.db.planets p) (buildable rules.toWorld game.db p name)).changes
          (game.db.users u).money).sum := by
  rw [Planet.createBuildingJob, run_bind_get]
  dsimp only
  cases buildable rules.toWorld game.db p name with
  | none => exact (add_zero _).symm
  | some type =>
      rw [huser]
      dsimp only [changes]
      split
      · exact (add_zero _).symm
      · rw [run_bind_modify, List.sum_singleton]
        change (if u = u then _ else _ : User).money = _
        rw [if_pos rfl]
        exact sub_eq_add_neg _ _

theorem startable_eq {id : TechnologyId} {row : TechnologyRow} (hrow : rules.technology id = some row) :
    startable rules game id u =
      if allowed rules game u id row ∧ row.getTechnologyCost (game.ranks u id) ≤ (game.db.users u).money then
        some row
      else none := by
  rw [startable, hrow]
  dsimp only
  rw [technologyRequire?, allowed]
  cases (rules.requires id).head? with
  | none => rfl
  | some first =>
      dsimp only
      split
      · rename_i haccepted
        have haccepts := of_decide_eq_true (Except.ok.inj haccepted)
        split
        · rename_i hidle
          rw [if_pos]
          exact ⟨decide_eq_true ⟨haccepts.1, haccepts.2.1, haccepts.2.2.2, hidle⟩, haccepts.2.2.1⟩
        · rename_i hbusy
          rw [if_neg]
          exact fun hall => hbusy (of_decide_eq_true hall.1).2.2.2
      · rename_i hrefused
        rw [if_neg]
        rintro ⟨hallowed, hcost⟩
        have hall := of_decide_eq_true hallowed
        exact hrefused (congrArg Except.ok (decide_eq_true ⟨hall.1, hall.2.1, hcost, hall.2.2.1⟩))

theorem money_upgradeTechnology {id : TechnologyId} {row : TechnologyRow} (hrow : rules.technology id = some row) :
    ((after ((Technology.upgradeTechnology rules id u).run game)).db.users u).money = (game.db.users u).money +
      ((upgradeTechnology (row.getTechnologyCost (game.ranks u id)) (allowed rules game u id row)).changes
        (game.db.users u).money).sum := by
  rw [upgrade_outcome, startable_eq hrow, changes]
  by_cases hstarts : allowed rules game u id row ∧ row.getTechnologyCost (game.ranks u id) ≤ (game.db.users u).money
  · rw [if_pos hstarts, if_pos hstarts, List.sum_singleton, ← sub_eq_add_neg]
    dsimp only
    rw [money_started, if_pos rfl]
  · rw [if_neg hstarts, if_neg hstarts]
    exact (add_zero _).symm

theorem money_abortTechnology {id : TechnologyId} {row : TechnologyRow} (hrow : rules.technology id = some row) :
    ((after ((Technology.abortTechnology rules id u).run game)).db.users u).money = (game.db.users u).money +
      ((abortTechnology (row.getTechnologyCost (game.ranks u id))).changes (game.db.users u).money).sum := by
  rw [abort_outcome, hrow]
  dsimp only [changes]
  rw [money_aborted, if_pos rfl, List.sum_singleton]

theorem getProduction_eq {planet : Planet} (huser : planet.user = some u) (name : BuildingName) :
    (getProduction rules p planet name).run game = .ok (planet.production rules game u p name) game := by
  rw [getProduction, run_bind_get, production, huser]
  cases productionBuilding rules game.db.buildings p name <;> rfl

variable (rules) in
/-- The part of a tick that runs on energy saves the income and nothing else of the game. -/
theorem after_produce (huser : (game.db.planets p).user = some u) :
    after ((produce rules p (game.db.planets p)).run game) =
      game.setDb (game.db.setMoney u ((game.db.users u).money + income rules game u p)) := by
  rw [produce]
  rw [run_bind_of_ok (getProduction_eq (u := u) (by exact huser) _)]
  rw [run_bind_of_ok (getProduction_eq (u := u) (by exact huser) _)]
  rw [run_bind_of_ok (getProduction_eq (u := u) (by exact huser) _)]
  rw [run_bind_of_ok (getProduction_eq (u := u) (by exact huser) _)]
  dsimp only
  rw [huser]
  dsimp only
  rw [run_bind_modify, run_bind_get]
  cases energyUsage rules (game.setDb (game.db.setMoney u ((game.db.users u).money + _))).db.buildings p <;> rfl

/-- What a tick does after that leaves the money as it is. -/
theorem rest_keeps_money (money : ℤ) (planet : Planet) :
    Safe (fun game => (game.db.users u).money = money) (do
      let power ← getProduction rules p planet .powerplant
      let planet := { planet with energy := grow planet.energy power planet.maxenergy }
      onDb (createProductionJob p)
      modify fun game => game.setDb (game.db.setPlanet p planet) : GameAct Unit) anything := by
  refine Safe.bind (φ := anything) ?_ fun power _ => ?_
  · refine Safe.get.bind fun state _ => ?_
    split
    · exact Safe.pure trivial
    · exact Safe.throw _ _
    · exact Safe.pure trivial
  · refine Safe.bind (φ := anything) ?_ fun _ _ => Safe.modify fun state hstate => hstate
    exact fun state hstate => ⟨hstate, fun _ _ => trivial⟩

theorem money_updateResources (huser : (game.db.planets p).user = some u) :
    ((after ((Planet.updateResources rules p).run game)).db.users u).money = (game.db.users u).money +
      ((updateResources (game.db.planets p).energy (income rules game u p)).changes (game.db.users u).money).sum := by
  rw [Planet.updateResources, run_bind_get, changes]
  dsimp only
  by_cases henergy : 0 < (game.db.planets p).energy
  · rw [if_pos henergy, if_pos henergy, List.sum_singleton]
    have hproduce := after_produce rules huser
    rw [run_bind]
    cases hres : (produce rules p (game.db.planets p)).run game with
    | error err middle =>
        rw [hres] at hproduce
        obtain rfl : middle = _ := hproduce
        exact congrArg User.money (if_pos rfl)
    | ok planet middle =>
        rw [hres] at hproduce
        obtain rfl : middle = _ := hproduce
        exact (rest_keeps_money _ planet).after (congrArg User.money (if_pos rfl))
  · rw [if_neg henergy, if_neg henergy, run_bind_pure]
    exact (rest_keeps_money _ _).after (add_zero _).symm

/-- Whether the planet has what ships cost besides the money. -/
def restTaken (rules : Rules) (game : Game) (p : PlanetId) (ships : Hash ShipId ℤ) : Bool :=
  let taken (type : Resource) : Bool :=
    ShipBuildingQueue.paid rules ships p game type = ShipBuildingQueue.charge rules ships type
  taken .ore ∧ taken .crystal ∧ taken .population

theorem money_insert (huser : (game.db.planets p).user = some u) (ships : Hash ShipId ℤ) :
    ((after ((ShipBuildingQueue.insert rules ships p).run game)).db.users u).money =
      (game.db.users u).money +
        ((insert (ShipBuildingQueue.charge rules ships .money) (restTaken rules game p ships)).changes
          (game.db.users u).money).sum := by
  have hpaid : ShipBuildingQueue.paid rules ships p game .money =
      got (game.db.users u).money (ShipBuildingQueue.charge rules ships .money) := by
    rw [ShipBuildingQueue.paid, holding_money huser]
  have hcondition : ShipBuildingQueue.Affordable rules ships p game ↔
      (takeMoney (ShipBuildingQueue.charge rules ships .money) (game.db.users u).money).2 =
          ShipBuildingQueue.charge rules ships .money ∧ restTaken rules game p ships := by
    rw [ShipBuildingQueue.affordable_iff, takeMoney_snd, ← hpaid, restTaken]
    simp only [decide_eq_true_eq]
    tauto
  classical
  rw [ShipBuildingQueue.insert_apply, changes]
  dsimp only
  by_cases haffordable : ShipBuildingQueue.Affordable rules ships p game
  · rw [if_pos haffordable, if_pos (hcondition.mp haffordable), takeMoney_fst, ← hpaid, after_ok,
      ShipBuildingQueue.placed_eq_append]
    refine (Db.money_withHoldings _ huser).trans ?_
    rw [ShipBuildingQueue.left, holding_money huser, sub_eq_add_neg]
  · rw [if_neg haffordable, if_neg (mt hcondition.mpr haffordable), List.sum_append, takeMoney_fst, takeMoney_snd,
      sum_giveMoney, ← hpaid, after_ok]
    refine (Db.money_withHoldings _ huser).trans ?_
    rw [ShipBuildingQueue.givenBack, grown, huser, ShipBuildingQueue.left, holding_money huser]
    split
    · ring
    · rw [if_pos Option.isSome_some]
      ring

/-! ## What a request or job does -/

/-- What a request or job does to the money of the user, if it does something to it. -/
def of (rules : Rules) (game : Game) (u : UserId) : GameEvent → Option Operation
  | .updateResources p =>
      if (game.db.planets p).user = some u then
        some (.updateResources (game.db.planets p).energy (income rules game u p))
      else none
  | .createBuildingJob p name =>
      if (game.db.planets p).user = some u then
        some (.createBuildingJob (game.db.planets p) (buildable rules.toWorld game.db p name))
      else none
  | .insert p ships =>
      if (game.db.planets p).user = some u then
        some (.insert (ShipBuildingQueue.charge rules ships .money) (restTaken rules game p ships))
      else none
  | .upgradeTechnology id user =>
      if user = u then
        (rules.technology id).map fun row =>
          .upgradeTechnology (row.getTechnologyCost (game.ranks u id)) (allowed rules game u id row)
      else none
  | .abortTechnology id user =>
      if user = u then
        (rules.technology id).map fun row => .abortTechnology (row.getTechnologyCost (game.ranks u id))
      else none
  | .give p .money number => if (game.db.planets p).user = some u then some (.give number) else none
  | .take p .money number => if (game.db.planets p).user = some u then some (.take number) else none
  | _ => none

/-- Carried out as a whole, an operation changes the money by what it saves. -/
theorem money_step {event : GameEvent} {operation : Operation} (hof : of rules game u event = some operation)
    {next : Game} (hstep : event.step rules game = some next) :
    (next.db.users u).money = (game.db.users u).money + (operation.changes (game.db.users u).money).sum := by
  cases event with
  | updateResources p =>
      obtain ⟨huser, hop⟩ := Option.ite_none_right_eq_some.mp hof
      cases hop
      cases hstep
      exact money_updateResources huser
  | createBuildingJob p name =>
      obtain ⟨huser, hop⟩ := Option.ite_none_right_eq_some.mp hof
      cases hop
      cases hstep
      rw [after_onDb]
      exact money_createBuildingJob huser name
  | insert p ships =>
      obtain ⟨huser, hop⟩ := Option.ite_none_right_eq_some.mp hof
      cases hop
      cases hstep
      exact money_insert huser ships
  | upgradeTechnology id user =>
      obtain ⟨rfl, hop⟩ := Option.ite_none_right_eq_some.mp hof
      obtain ⟨row, hrow, rfl⟩ := Option.map_eq_some_iff.mp hop
      cases hstep
      exact money_upgradeTechnology hrow
  | abortTechnology id user =>
      obtain ⟨rfl, hop⟩ := Option.ite_none_right_eq_some.mp hof
      obtain ⟨row, hrow, rfl⟩ := Option.map_eq_some_iff.mp hop
      cases hstep
      exact money_abortTechnology hrow
  | give p type number =>
      cases type with
      | money =>
          obtain ⟨huser, hop⟩ := Option.ite_none_right_eq_some.mp hof
          cases hop
          cases hstep
          rw [after_onDb]
          exact money_give huser number
      | _ => cases hof
  | take p type number =>
      cases type with
      | money =>
          obtain ⟨huser, hop⟩ := Option.ite_none_right_eq_some.mp hof
          cases hop
          cases hstep
          rw [after_onDb]
          exact money_take huser number
      | _ => cases hof
  | _ => cases hof

/-! ## Overlapping operations -/

/-- Operations that do not overlap lose nothing. -/
theorem separate_updates_add_up {ι : Type*} [DecidableEq ι] (operations : ι → Operation) {money : ℤ}
    {schedule : List ι} {final : Shared ι ℤ} (halone : Along Shared.step Shared.Alone (start operations money) schedule)
    (hrun : run Shared.step (start operations money) schedule = some final) :
    final.value = money + sumAlong Shared.step Shared.saved (start operations money) schedule := by
  have hcurrent : (start operations money).Current := fun _ _ _ hworking => nomatch hworking
  have hnever := Shared.not_overwrites_of_alone hcurrent halone
  exact (Shared.adds_up_iff _ schedule).mpr hnever schedule [] (List.append_nil schedule).symm final hrun

end Operation

end Mmog

import Mmog.Missions.Bases
import Mmog.Model.Seeds
import Mmog.Ownership.Tick
import Mmog.Requests.Sound
import Mmog.Ships.Delivery

/-!
# One home fleet

A planet has at most one fleet based on it, unless a request splits a fleet that
has cargo but no capacity to divide it by: then the split raises, and its new
fleet stays.
-/

namespace Mmog

open Ruby Action Fleet MissionsController

/-! ## Bases -/

namespace Db

/-- A fleet is based on the planet. -/
def bases (db : Db) (id : FleetId) (p : PlanetId) : Prop :=
  ∃ row, db.fleets.get id = some row ∧ row.base = some p

theorem based_bases (db : Db) : db.Based db.bases := fun _ row _ hget hbase => ⟨row, hget, hbase⟩

theorem Based.trans {bases : FleetId → PlanetId → Prop} {db next : Db} (hdb : db.Based bases)
    (hnext : next.Based db.bases) : next.Based bases := by
  intro id row p hget hbase
  obtain ⟨old, hold, hbase'⟩ := hnext id row p hget hbase
  exact hdb id old p hold hbase'

theorem base_of_route {row other : FleetRow} (hroute : other.attributes.toRoute = row.attributes.toRoute) :
    other.base = row.base := by
  unfold FleetRow.base
  rw [hroute]

/-- A row that stays based where it was. -/
theorem based_put {bases : FleetId → PlanetId → Prop} {db : Db} {t : Table FleetRow} {id : FleetId}
    {old row : FleetRow} (hdb : (db.setFleets t).Based bases) (hget : t.get id = some old)
    (hbase : row.base = old.base) : (db.setFleets (t.put id row)).Based bases := by
  intro other found p hfound hp
  rw [fleets_setFleets, Table.get_put _ hget] at hfound
  split at hfound
  · rename_i heq
    obtain rfl := Option.some.inj hfound
    rw [hbase] at hp
    exact hdb other old p (heq ▸ hget) hp
  · exact hdb other found p hfound hp

/-- A planet has at most one fleet based on it, and then it has an owner. -/
structure Homes (db : Db) : Prop where
  unique : ∀ id other p, db.bases id p → db.bases other p → id = other
  owned : ∀ id p, db.bases id p → (db.planets p).user.isSome = true

theorem Homes.of_based {bases : FleetId → PlanetId → Prop} {next : Db} (hnext : next.Based bases)
    (hunique : ∀ id other p, bases id p → bases other p → id = other)
    (howned : ∀ id p, bases id p → (next.planets p).user.isSome = true) : next.Homes := by
  constructor
  · rintro id other p ⟨row, hget, hbase⟩ ⟨found, hfound, hbase'⟩
    exact hunique id other p (hnext id row p hget hbase) (hnext other found p hfound hbase')
  · rintro id p ⟨row, hget, hbase⟩
    exact howned id p (hnext id row p hget hbase)

/-- One more base, where there was none. -/
def basesAnd (db : Db) (fleet : FleetId) (planet : PlanetId) (id : FleetId) (p : PlanetId) : Prop :=
  db.bases id p ∨ id = fleet ∧ p = planet

theorem Homes.unique_and {db : Db} (hdb : db.Homes) (fleet : FleetId) {planet : PlanetId}
    (hnobody : ∀ id, ¬db.bases id planet) (id other : FleetId) (p : PlanetId)
    (hid : db.basesAnd fleet planet id p) (hother : db.basesAnd fleet planet other p) : id = other := by
  rcases hid with hid | ⟨hid, hp⟩
  · rcases hother with hother | ⟨-, hp⟩
    · exact hdb.unique id other p hid hother
    · exact absurd (hp ▸ hid) (hnobody id)
  · rcases hother with hother | ⟨hother, -⟩
    · exact absurd (hp ▸ hother) (hnobody other)
    · exact hid.trans hother.symm

/-! ## Owners -/

/-- These planets have owners. -/
def Owned (who : PlanetId → Prop) (db : Db) : Prop := ∀ p, who p → (db.planets p).user.isSome = true

variable {who : PlanetId → Prop} {db : Db}

theorem Owned.setPlanet (hdb : db.Owned who) {p : PlanetId} {planet : Planet}
    (huser : (db.planets p).user.isSome = true → planet.user.isSome = true) : (db.setPlanet p planet).Owned who := by
  intro q hq
  unfold Db.setPlanet
  dsimp only
  split
  · rename_i heq
    exact huser (hdb p (heq ▸ hq))
  · exact hdb q hq

theorem Owned.frame : FleetFrame (Owned who) where
  fleets _ hdb := hdb
  stock := @fun _ p type n _ hdb => hdb.setPlanet fun huser => by rwa [Planet.user_setStock type n]
  spend := @fun _ p _ _ _ hdb => hdb.setPlanet fun huser => by rwa [Planet.user_setStock .energy]
  charge := @fun _ p _ _ hdb => hdb.setPlanet fun huser => by rwa [Planet.user_setStock .energy]
  money _ _ hdb := hdb
  setting _ _ hdb := hdb
  enqueue := @fun _ _ _ _ _ hdb => hdb
  remove := @fun _ _ _ _ hdb => hdb

theorem Owned.queue : QueueFrame (Owned who) where
  wait _ hdb := hdb
  schedule := @fun _ _ _ _ hdb => hdb
  take := @fun _ _ _ _ _ _ hdb => hdb

/-- What follows in a claim after the planet got its owner. -/
theorem starts_owned (w : World) (p : PlanetId) (condition : Prop) [Decidable condition] :
    Safe (Owned who) (if condition then do
      Planet.startBuilding w p .oremine
      Planet.startBuilding w p .headquarter
      Planet.startBuilding w p .powerplant
      Planet.startBuilding w p .city
      Planet.createProductionJob p
      else pure ⟨⟩ : Act Unit) anything := by
  have hstart : ∀ name, Safe (Owned who) (Planet.startBuilding w p name) anything := by
    intro name
    refine Safe.bind (φ := anything) ?_ fun _ _ => Safe.modify fun db hdb => hdb.setPlanet id
    intro db hdb
    refine ⟨?_, fun _ _ => trivial⟩
    obtain hsame | ⟨type, u, -, -, -, hordered⟩ := Planet.createBuildingJob_outcome w p name db
    · rw [hsame]
      exact hdb
    · rw [hordered]
      exact (show (db.setMoney u _).Owned who from hdb).setPlanet id
  refine Safe.ite (fun _ => ?_) fun _ => Safe.pure trivial
  refine (hstart .oremine).bind fun _ _ => (hstart .headquarter).bind fun _ _ => ?_
  refine (hstart .powerplant).bind fun _ _ => (hstart .city).bind fun _ _ => ?_
  exact Safe.get.bind fun later _ => Safe.modify fun _ hdb => hdb

theorem claim_owned (w : World) (p : PlanetId) (u : UserId) : Safe (Owned who) (Planet.claim w p u) anything :=
  Safe.get.bind fun db _ =>
    (Safe.modify fun _ hdb => hdb.setPlanet fun _ => rfl).bind fun _ _ => starts_owned w p (db.planets p).user.isNone

/-- Whoever claims a planet owns it, whatever becomes of the buildings. -/
theorem claim_owns (w : World) (p : PlanetId) (u : UserId) (db : Db) :
    (after ((Planet.claim w p u).run db)).Owned (· = p) := by
  rw [Planet.claim, run_bind_get]
  refine (starts_owned w p _).after ?_
  rintro q rfl
  exact congrArg Option.isSome (congrArg Planet.user (if_pos rfl))

theorem settle_owns (w : World) (self : Fleet) (planet : PlanetId) (db : Db) :
    (after ((self.settle w planet).run db)).Owned (· = planet) := by
  have hclaim := claim_owns w planet self.user db
  rw [settle, run_bind]
  cases hres : (Planet.claim w planet self.user).run db with
  | error err middle =>
      rw [hres] at hclaim
      exact hclaim
  | ok value middle =>
      rw [hres] at hclaim
      refine Safe.after (φ := anything) (Safe.get.bind fun later _ => ?_) hclaim
      refine (Owned.frame.unloadRessources _ planet).bind fun unloaded _ => ?_
      refine (Owned.frame.destroyShips w unloaded _).bind fun valued _ => ?_
      exact (Owned.frame.updateValues w _).bind fun _ _ => Safe.pure trivial

/-- No event takes a planet from its owner. -/
theorem step_owned {w : World} {next : Db} (hdb : db.Owned who) {event : Event}
    (hstep : step w db event = some next) : next.Owned who :=
  Owned.frame.step Owned.queue (fun _ => id)
    (fun fleet planet _ hstart =>
      ((find_safe fleet).bind fun found _ =>
        Owned.frame.colonize w (claim_owned w) found planet).after hstart) hdb hstep

end Db

/-! ## Requests -/

section Requests

variable (w : World) {db : Db} {bases : FleetId → PlanetId → Prop}

theorem splitTable_based (shipHash : Hash ShipId ℤ) (user : UserId) {self : Fleet} {row : FleetRow}
    (hget : db.fleets.get self.id = some row) (hself : self.toRoute = row.attributes.toRoute)
    (hdb : db.Based bases) {sent : FleetRow} (hsent : sent.base = none) :
    (db.setFleets ((splitTable w db shipHash user row.shipfleets self).put db.fleets.nextId sent)).Based bases := by
  intro id found p hfound hbase
  rw [Db.fleets_setFleets, Table.get_put _ (get_splitTable_new w db self row shipHash user)] at hfound
  split at hfound
  · obtain rfl := Option.some.inj hfound
    rw [hsent] at hbase
    cases hbase
  · rename_i hnew
    by_cases heq : id = self.id
    · rw [heq, get_splitTable_self w hget] at hfound
      obtain rfl := Option.some.inj hfound
      rw [heq]
      refine hdb self.id row p hget ?_
      rw [← hbase]
      exact (Db.base_of_route ((staying_toRoute w db shipHash row.shipfleets self).trans hself)).symm
    · rw [get_splitTable_of_ne w heq hnew] at hfound
      exact hdb id found p hfound hbase

theorem checkedDb_based {params : Params} {row : FleetRow} {user : UserId}
    (hget : db.fleets.get params.fleet = some row) (hdb : db.Based bases) :
    (checkedDb w db params row user).Based bases := by
  have hbase : (checkedRow w db params row user).base = row.base :=
    Db.base_of_route (checkedRow_toRoute w db params row user)
  have hput := Db.based_put (t := db.fleets) hdb hget hbase
  intro id found p hfound hp
  exact hput id found p (by rwa [checkedDb, Db.fleets_setFleets, Table.get_skip] at hfound) hp

/-- The split of a check divides by a capacity, if it gets as far as dividing. -/
def SplitsSafely (db : Db) (params : Params) : Prop :=
  match db.fleets.get params.fleet with
  | none => True
  | some row =>
      (params.shipHash w).entries ≠ [] → enoughShips? row.shipfleets (params.shipHash w) = true →
        (db.planets row.attributes.originPlanet).user.isSome = true →
          ¬SplitFails w db (params.shipHash w) row.shipfleets (ofRow params.fleet row)

instance (db : Db) (params : Params) : Decidable (SplitsSafely w db params) := by
  unfold SplitsSafely
  split <;> infer_instance

theorem check_based {params : Params} (hsafe : SplitsSafely w db params) (hdb : db.Based bases)
    {result : EStateM.Result Err Db (List String)} (hcheck : CheckOutcome w db params result) :
    (after result).Based bases := by
  cases hcheck with
  | missing hget => exact hdb
  | early row fehler hget hfehler hearly => exact hdb
  | unowned row hget hships henough howner =>
      exact Db.based_put (t := db.fleets) hdb hget (Db.base_of_route (valued_toRoute w db _ _))
  | leftSplit row user hget hships henough howner hfails =>
      rw [SplitsSafely, hget] at hsafe
      exact absurd hfails (hsafe hships henough (by rw [howner]; rfl))
  | undone row user hget hships henough howner hfails => exact checkedDb_based w hget hdb

theorem send_based {params : Params} (hsafe : SplitsSafely w db params) (hdb : db.Based bases) :
    (after ((sendFleet w params).run db)).Based bases := by
  have hsend := send_outcome w db params
  generalize (sendFleet w params).run db = result at hsend
  cases hsend with
  | raised err next hrun hcheck => exact check_based w hsafe hdb hcheck
  | complained fehler next hrun hcheck hfehler => exact check_based w hsafe hdb hcheck
  | away row user message hpassed haway => exact checkedDb_based w hpassed.get hdb
  | based row user err hpassed hhome hmission =>
      exact checkedDb_based w (get_checkedDb w user hpassed.get) (checkedDb_based w hpassed.get hdb)
  | left row user planet next hpassed hhome hmission hplanet hmove =>
      have hchecked : (checkedDb w db params row user).Based bases := checkedDb_based w hpassed.get hdb
      have hget := get_checkedDb w user hpassed.get
      cases hmove with
      | left user' time energy cargo next hhome' henough howner hfails hships hneeds hpaid hready hboard hcargo
          hstocked =>
          let self := ofRow params.fleet (checkedRow w db params row user)
          let sent : FleetRow := ⟨((mover w (checkedDb w db params row user) self (checkedRow w db params row user)
            planet (params.shipHash w) user' time).sent params.mission cargo).toAttributes, added (params.shipHash w) []⟩
          have hfleets : next.fleets = (splitTable w (checkedDb w db params row user) (params.shipHash w) user'
              (checkedRow w db params row user).shipfleets self).put (checkedDb w db params row user).fleets.nextId sent :=
            congrArg Board.fleets hboard
          have hself : (checkedDb w db params row user).fleets.get self.id = some (checkedRow w db params row user) := hget
          have hsent := splitTable_based w (params.shipHash w) user' hself rfl hchecked
            (show sent.base = none from if_neg hmission)
          intro id found p hfound hbase
          rw [after_ok, hfleets] at hfound
          exact hsent id found p hfound hbase

end Requests

/-! ## Events -/

namespace Db

variable {w : World} {db next : Db}

/-- The split of a request divides by a capacity. -/
def SplitsWell (w : World) (db : Db) : Event → Prop
  | .check params => SplitsSafely w db params
  | .send params => SplitsSafely w db params
  | _ => True

instance (w : World) (db : Db) (event : Event) : Decidable (SplitsWell w db event) := by
  unfold SplitsWell
  split <;> infer_instance

theorem addShipToPlanet_homes (w : World) (hdb : db.Homes) (ship : ShipId) (planet : PlanetId)
    (hkeeps : (after ((addShipToPlanet w ship planet).run db)).Based db.bases →
      (after ((addShipToPlanet w ship planet).run db)).Homes) :
    (after ((addShipToPlanet w ship planet).run db)).Homes := by
  cases hfirst : db.fleets.first (Db.basedAt planet) with
  | some id =>
      obtain ⟨row, hget, -⟩ := Table.first_eq_some hfirst
      apply hkeeps
      rw [addShipToPlanet_home w hfirst hget]
      exact based_put (t := db.fleets) db.based_bases hget (base_of_route (valued_toRoute w db _ _))
  | none =>
      cases howner : (db.planets planet).user with
      | none =>
          rw [addShipToPlanet_nobody w hfirst howner]
          exact hdb
      | some user =>
          have hnobody : ∀ id, ¬db.bases id planet := by
            rintro id ⟨row, hget, hbase⟩
            have hfalse := Table.first_eq_none.mp hfirst id row hget
            rw [basedAt_iff.mpr hbase] at hfalse
            cases hfalse
          rw [addShipToPlanet_new w hfirst howner, after_ok]
          refine .of_based ?_ (hdb.unique_and db.fleets.nextId hnobody) ?_
          · intro id row p hget hbase
            rw [fleets_setFleets, Table.get_create] at hget
            split at hget
            · rename_i heq
              obtain rfl := Option.some.inj hget
              have hroute : FleetRow.base ⟨valued w db (added (.single ship 1) []) (newAttributes db planet user),
                  added (.single ship 1) []⟩ = FleetRow.base ⟨newAttributes db planet user, []⟩ :=
                base_of_route (valued_toRoute w db _ _)
              rw [hroute] at hbase
              exact .inr ⟨heq, (Option.some.inj hbase).symm⟩
            · exact .inl ⟨row, hget, hbase⟩
          · rintro id p (hid | ⟨-, rfl⟩)
            · exact hdb.owned id p hid
            · exact congrArg Option.isSome howner

/-- A colonist gets the planet for its base only if nobody owned it. -/
theorem colonize_homes (w : World) (hdb : db.Homes) (fleet : FleetId) (planet : PlanetId)
    (hkeeps : (after ((do (← find fleet).colonize w planet : Act Unit).run db)).Based db.bases →
      (after ((do (← find fleet).colonize w planet : Act Unit).run db)).Homes)
    (howners : ∀ p, (db.planets p).user.isSome = true →
      ((after ((do (← find fleet).colonize w planet : Act Unit).run db)).planets p).user.isSome = true) :
    (after ((do (← find fleet).colonize w planet : Act Unit).run db)).Homes := by
  cases hget : db.fleets.get fleet with
  | none =>
      apply hkeeps
      rw [run_bind_of_error (find_of_none hget)]
      exact db.based_bases
  | some row =>
      have hself : (ofRow fleet row).Lodged db.bases := fun hmission => ⟨row, hget, if_pos hmission⟩
      rw [run_bind_of_ok (find_of_some hget), colonize, run_bind_get] at hkeeps howners ⊢
      cases hrelation : db.relation (ofRow fleet row).user planet with
      | unknown =>
          rw [hrelation] at howners
          have hfree := Planet.user_of_unknown hrelation
          have hnobody : ∀ id, ¬db.bases id planet := by
            intro id hbase
            have howned := hdb.owned id planet hbase
            rw [hfree] at howned
            cases howned
          refine .of_based ?_ (hdb.unique_and fleet hnobody) ?_
          · exact (settle_based w _ (.inr ⟨rfl, rfl⟩)).after fun id row p hget hbase => .inl ⟨row, hget, hbase⟩
          · rintro id p (hid | ⟨-, rfl⟩)
            · exact howners p (hdb.owned id p hid)
            · exact settle_owns w _ p db p rfl
      | _ =>
          rw [hrelation] at hkeeps
          exact hkeeps ((returnToOrigin_based w hself planet).after db.based_bases)

theorem step_homes (hdb : db.Homes) {event : Event} (hwell : SplitsWell w db event)
    (hstep : step w db event = some next) : next.Homes := by
  have howners : ∀ p, (db.planets p).user.isSome = true → (next.planets p).user.isSome = true :=
    step_owned (fun _ howned => howned) hstep
  -- where nothing gets a new base, the owners stay
  have hkeeps : next.Based db.bases → next.Homes := fun hnext =>
    .of_based hnext hdb.unique fun id p hbase => howners p (hdb.owned id p hbase)
  have hsafe : ∀ {α : Type} {action : Act α} {φ : α → Prop}, Safe (Based db.bases) action φ →
      settled (action.run db) = some next → next.Homes := by
    intro α action φ hsafe hsettled
    rw [settled_eq_some hsettled] at hkeeps ⊢
    exact hkeeps (hsafe.after db.based_bases)
  cases event with
  | wait seconds =>
      cases hstep
      exact hkeeps db.based_bases
  | addShip ship planet =>
      rw [settled_eq_some hstep] at hkeeps ⊢
      exact addShipToPlanet_homes w hdb ship planet hkeeps
  | check params =>
      rw [settled_eq_some hstep] at hkeeps ⊢
      exact hkeeps (check_based w hwell db.based_bases (check_outcome w db params))
  | send params =>
      rw [settled_eq_some hstep] at hkeeps ⊢
      exact hkeeps (send_based w hwell db.based_bases)
  | breakup fleet => exact hsafe ((find_based fleet).bind fun found hfound => breakupMission_based hfound) hstep
  | unload fleet planet =>
      refine hsafe (φ := anything) ((find_based fleet).bind fun found hfound => ?_) hstep
      refine Safe.ite (fun _ => ?_) fun _ => Safe.pure trivial
      exact (unloadRessources_based hfound planet).bind fun _ _ => Safe.pure trivial
  | research user technology factor =>
      cases hstep
      exact hkeeps db.based_bases
  | schedule index =>
      simp only [step] at hstep
      split at hstep
      · split at hstep
        · cases hstep
          exact hkeeps db.based_bases
        · cases hstep
      · cases hstep
  | work index draws =>
      simp only [step] at hstep
      split at hstep
      · rename_i job hready
        split at hstep
        · rename_i action hperform
          let taken : Db := { db with ready := db.ready.eraseIdx index }
          rw [settled_eq_some hstep] at hkeeps howners ⊢
          have hdone : ∀ {action : Act Unit}, Safe (Based db.bases) action anything →
              (after (action.run taken)).Based db.bases := fun hsafe => hsafe.after db.based_bases
          cases job with
          | attackPlanet fleet planet =>
              cases hperform
              exact hkeeps (hdone ((find_based fleet).bind fun found hfound => attack_based w hfound draws planet))
          | colonizePlanet fleet planet =>
              cases hperform
              exact colonize_homes w (show taken.Homes from ⟨hdb.unique, hdb.owned⟩) fleet planet hkeeps howners
          | travelToPlanet fleet planet =>
              cases hperform
              exact hkeeps (hdone ((find_based fleet).bind fun found hfound => travel_based w hfound planet))
          | spyPlanet fleet planet factor =>
              cases hperform
              exact hkeeps (hdone ((find_based fleet).bind fun found hfound => spy_based w hfound _ _ planet))
          | transportToPlanet fleet planet =>
              cases hperform
              exact hkeeps (hdone ((find_based fleet).bind fun found hfound => transport_based w hfound planet))
          | returnToOrigin fleet =>
              cases hperform
              exact hkeeps (hdone ((find_based fleet).bind fun found _ => arriveHome_based w found))
          | buildBuildings planet buildingtype => cases hperform
          | produceResources planet => cases hperform
        · cases hstep
      · cases hstep

/-! ## Runs -/

theorem Fresh.homes (hfresh : db.Fresh) : db.Homes := by
  have hnone : ∀ id p, ¬db.bases id p := by
    rintro id p ⟨row, hget, -⟩
    rw [hfresh.get] at hget
    cases hget
  exact ⟨fun id _ p hid _ => absurd hid (hnone id p), fun id p hid => absurd hid (hnone id p)⟩

theorem Homes.length_le_one (hdb : db.Homes) (p : PlanetId) : (db.fleets.select (basedAt p)).length ≤ 1 := by
  have hbases : ∀ id ∈ db.fleets.select (basedAt p), db.bases id p := by
    intro id hid
    obtain ⟨row, hget, htest⟩ := Table.mem_select.mp hid
    exact ⟨row, hget, basedAt_iff.mp htest⟩
  match hselect : db.fleets.select (basedAt p) with
  | [] => exact Nat.zero_le 1
  | [_] => exact le_rfl
  | home :: other :: rest =>
      have hnodup := Table.nodup_select db.fleets (basedAt p)
      rw [hselect] at hbases hnodup
      have heq : home = other :=
        hdb.unique home other p (hbases home List.mem_cons_self) (hbases other (by simp))
      exact absurd (heq ▸ List.mem_cons_self) (List.nodup_cons.mp hnodup).1

end Db

/-- Unless a split has cargo but no capacity to divide it by, no planet ever has two home fleets. -/
theorem at_most_one_home_fleet (w : World) {start db : Db} {events : List Event} (hfresh : start.Fresh)
    (hwell : Along (step w) (Db.SplitsWell w) start events) (hrun : run (step w) start events = some db)
    (p : PlanetId) : (db.fleets.select (Db.basedAt p)).length ≤ 1 :=
  (run_keeps Db.Homes (fun _ _ _ hdb hgood => Db.step_homes hdb hgood) hfresh.homes hwell hrun).length_le_one p

/-- A ship of the home fleet takes ore to a planet of nobody. -/
def freight : Params where
  fleet := 1
  mission := 6
  planet := some 5
  ship ship := if ship = 1 then some 1 else none
  ressOre := some 10

/-- Both ships that carry cargo leave the home fleet. -/
def departure : Params where
  fleet := 1
  mission := 4
  planet := some 2
  ship ship := if ship = 1 then some 2 else none

/-- A check for the spy drone. -/
def droneCheck : Params where
  fleet := 1
  mission := 5
  planet := some 11
  ship ship := if ship = 7 then some 1 else none

/-- The freight comes back to the home fleet, and then everything that could carry it leaves. -/
def strandedOre : List Event :=
  [.addShip 1 1, .addShip 1 1, .addShip 7 1, .send freight, .wait 100000, .schedule 0, .work 0 {},
    .wait 100000, .schedule 0, .work 0 {}, .send departure]

def strandedDb : Db := (run (step Seeds.world) Seeds.start strandedOre).get (by decide +kernel)

theorem at_most_one_home_fleet_sample :
    strandedDb.fleets.nextId = 6 ∧ (strandedDb.fleets.select (Db.basedAt 1)).length ≤ 1 := by
  have hrun : run (step Seeds.world) Seeds.start strandedOre = some strandedDb := (Option.some_get _).symm
  exact ⟨by decide +kernel, at_most_one_home_fleet Seeds.world Seeds.start_fresh (by decide +kernel) hrun 1⟩

def twinDb : Db :=
  (run (step Seeds.world) Seeds.start (strandedOre ++ [.check droneCheck])).get (by decide +kernel)

/-- A check that raises leaves a second home fleet. -/
theorem two_home_fleets :
    ¬∀ (w : World) (start db : Db) (events : List Event), start.Fresh →
      run (step w) start events = some db → ∀ p, (db.fleets.select (Db.basedAt p)).length ≤ 1 := by
  intro hall
  have hrun : run (step Seeds.world) Seeds.start (strandedOre ++ [.check droneCheck]) = some twinDb :=
    (Option.some_get _).symm
  have htwo : (twinDb.fleets.select (Db.basedAt 1)).length = 2 := by decide +kernel
  have hone := hall Seeds.world Seeds.start twinDb _ Seeds.start_fresh hrun 1
  rw [htwo] at hone
  exact absurd hone (by decide)

end Mmog

import Mmog.Shipyard.Queue
import Mmog.Access.Belongings

/-!
# Own orders

Buildings, research and ships that the user of the session orders or cancels on
the user's own planets leave everything of others in the whole game as it is.
-/

namespace Mmog

open Ruby Action Game Db

variable {session : Option UserId}

def ShipBuildingQueue.foreign (session : Option UserId) (db : Db) (q : ShipBuildingQueue) : Bool :=
  Foreign session (db.planets q.planet).user

def AddShip.foreign (session : Option UserId) (db : Db) (job : AddShip) : Bool :=
  Foreign session (db.planets job.planet).user

def ResearchTechnology.foreign (session : Option UserId) (job : ResearchTechnology) : Bool :=
  some job.user ≠ session

/-- Everything that belongs to users other than that of the session is the same. -/
structure Untouched (session : Option UserId) (before after : Game) : Prop where
  db : KeepsOthers session before.db after.db
  profiles : ∀ v, some v ≠ session → after.profiles v = before.profiles v
  ranks : ∀ v, some v ≠ session → after.ranks v = before.ranks v
  queue : ∀ id, after.queue.pick (ShipBuildingQueue.foreign session before.db) id =
    before.queue.pick (ShipBuildingQueue.foreign session before.db) id
  addShips : after.addShips.waiting (AddShip.foreign session before.db) =
    before.addShips.waiting (AddShip.foreign session before.db)
  addShipsReady : after.addShips.ready = before.addShips.ready
  researches : after.researches.waiting (ResearchTechnology.foreign session) =
    before.researches.waiting (ResearchTechnology.foreign session)
  researchesReady : after.researches.ready = before.researches.ready

namespace Untouched

theorem refl (game : Game) : Untouched session game game :=
  ⟨.refl _, fun _ _ => rfl, fun _ _ => rfl, fun _ => rfl, rfl, rfl, rfl, rfl⟩

variable {base game : Game} (hgame : Untouched session base game)

include hgame

theorem setDb {db : Db} (hdb : KeepsOthers session base.db db) : Untouched session base (game.setDb db) :=
  { hgame with db := hdb }

theorem setProfile {v : UserId} (hv : some v = session) (profile : Profile) :
    Untouched session base (game.setProfile v profile) :=
  { hgame with
    profiles := fun other hother => by
      have hne : other ≠ v := by
        rintro rfl
        exact hother hv
      exact (if_neg hne).trans (hgame.profiles other hother) }

theorem setResearches {researches : Backlog ResearchTechnology}
    (hwaiting : researches.waiting (ResearchTechnology.foreign session) =
      game.researches.waiting (ResearchTechnology.foreign session))
    (hready : researches.ready = game.researches.ready) :
    Untouched session base { game with researches } :=
  { hgame with
    researches := hwaiting.trans hgame.researches
    researchesReady := hready.trans hgame.researchesReady }

theorem setOrders {addShips : Backlog AddShip} {queue : Table ShipBuildingQueue}
    (hwaiting : addShips.waiting (AddShip.foreign session base.db) =
      game.addShips.waiting (AddShip.foreign session base.db))
    (hready : addShips.ready = game.addShips.ready)
    (hqueue : ∀ id, queue.pick (ShipBuildingQueue.foreign session base.db) id =
      game.queue.pick (ShipBuildingQueue.foreign session base.db) id) :
    Untouched session base { game with addShips, queue } :=
  { hgame with
    addShips := hwaiting.trans hgame.addShips
    addShipsReady := hready.trans hgame.addShipsReady
    queue := fun id => (hqueue id).trans (hgame.queue id) }

end Untouched

/-- What keeps planets and fleets of others keeps all of theirs. -/
theorem untouched_onDb {α : Type} {base : Game} {action : Act α} {φ : α → Prop}
    (hsafe : Safe (KeepsOthers session base.db) action φ) :
    Safe (Untouched session base) (onDb action) φ := by
  intro game hgame
  obtain ⟨hdb, hvalue⟩ := hsafe game.db hgame.db
  rw [run_onDb]
  cases hrun : action.run game.db with
  | ok value db =>
      rw [hrun] at hdb hvalue
      exact ⟨hgame.setDb hdb, hvalue⟩
  | error err db =>
      rw [hrun] at hdb
      exact ⟨hgame.setDb hdb, nofun⟩

/-! ## Buildings -/

namespace Planet

section Job

variable {base : Db} {p : PlanetId} (hp : ¬Foreign session (base.planets p).user)

include hp

theorem enqueueIn_keeps (seconds : ℤ) (buildingtype : ℕ) :
    Safe (KeepsOthers session base) (Resque.enqueueIn seconds (.buildBuildings p buildingtype)) anything :=
  Safe.get.bind fun _ _ => Safe.modify fun _ hdb => hdb.enqueue _ (decide_eq_false hp)

theorem createBuildingJob_keeps (w : World) (name : BuildingName) :
    Safe (KeepsOthers session base) (createBuildingJob w p name) anything := by
  refine Safe.get.bind fun db hdb => ?_
  dsimp only
  split
  · exact Safe.pure trivial
  · exact Safe.throw _ _
  · rename_i type u htype huser
    refine Safe.ite (fun _ => Safe.pure trivial) fun _ => ?_
    refine Safe.bind (φ := anything) (Safe.modify fun next hnext => ?_) fun _ _ => ?_
    · have hown := eq_session_of_not_foreign hp ((hdb.owner p).symm.trans huser)
      refine (hnext.setMoney hown _).setPlanet hp ?_
      exact (hdb.owner p).trans (hnext.owner p).symm
    · exact (enqueueIn_keeps hp _ _).bind fun _ _ => Safe.pure trivial

end Job

section Abort

variable {base : Game} {p : PlanetId} (hp : ¬Foreign session (base.db.planets p).user)

include hp

theorem setUnderConstruction_keeps :
    Safe (Untouched session base) (modify fun game => game.setDb
      (game.db.setPlanet p { game.db.planets p with underConstruction := 0 }) : GameAct Unit) anything :=
  Safe.modify fun _ hgame => hgame.setDb (hgame.db.setPlanet hp rfl)

theorem deleteBuildingJob_keeps (rules : Rules) (buildingtype : ℕ) :
    Safe (Untouched session base) (deleteBuildingJob rules p buildingtype) anything := by
  have hgive : ∀ type number, Safe (Untouched session base) (onDb (give p type number)) anything :=
    fun type number => untouched_onDb (Planet.give_keeps hp type number)
  have hremove : Safe (KeepsOthers session base.db)
      (Resque.removeDelayed (.buildBuildings p buildingtype)) anything :=
    Safe.modify fun _ hdb => hdb.remove (decide_eq_false hp)
  refine Safe.get.bind fun game _ => (untouched_onDb hremove).bind fun _ _ => ?_
  refine Safe.ite (fun _ => ?_) fun _ => Safe.pure trivial
  refine (setUnderConstruction_keeps hp).bind fun _ _ => ?_
  split
  · exact Safe.throw _ _
  · refine (hgive _ _).bind fun _ _ => (hgive _ _).bind fun _ _ => ?_
    exact (hgive _ _).bind fun _ _ => (hgive _ _).bind fun _ _ => Safe.pure trivial

theorem abortUpgrade_keeps (rules : Rules) (buildingtype : ℕ) :
    Safe (Untouched session base) (abortUpgrade rules p buildingtype) anything := by
  refine (deleteBuildingJob_keeps hp rules buildingtype).bind fun removed _ => ?_
  exact Safe.ite (fun _ => Safe.pure trivial) fun _ => setUnderConstruction_keeps hp

end Abort

end Planet

/-! ## Research -/

namespace Technology

variable {base : Game} {user : UserId} (huser : some user = session)

include huser

theorem not_foreign_job (id : TechnologyId) :
    ResearchTechnology.foreign session ⟨user, id⟩ = false := decide_eq_false (not_not.mpr huser)

theorem upgradeTechnology_keeps (rules : Rules) (id : TechnologyId) :
    Safe (Untouched session base) (upgradeTechnology rules id user) anything := by
  refine Safe.bind (φ := anything) ?_ fun row _ => Safe.get.bind fun game hgame => ?_
  · unfold findRow
    split
    · exact Safe.pure trivial
    · exact Safe.throw _ _
  · split
    · exact Safe.throw _ _
    · exact Safe.pure trivial
    · refine Safe.ite (fun _ => Safe.pure trivial) fun _ => Safe.set ?_
      refine ((hgame.setProfile huser _).setDb (hgame.db.setMoney huser _)).setResearches ?_ rfl
      exact Backlog.waiting_enqueueAt_of_not _ _ (not_foreign_job huser id)

theorem abortTechnology_keeps (rules : Rules) (id : TechnologyId) :
    Safe (Untouched session base) (abortTechnology rules id user) anything := by
  refine Safe.bind (φ := anything) ?_ fun row _ => Safe.get.bind fun game hgame => Safe.set ?_
  · unfold findRow
    split
    · exact Safe.pure trivial
    · exact Safe.throw _ _
  · refine ((hgame.setProfile huser _).setDb (hgame.db.setMoney huser _)).setResearches ?_ rfl
    exact Backlog.waiting_removeDelayed_of_not _ (not_foreign_job huser id)

end Technology

/-! ## Ships -/

namespace ShipBuildingQueue

variable {base : Game} {planet : PlanetId} (hplanet : ¬Foreign session (base.db.planets planet).user)

include hplanet

theorem append_untouched {game : Game} (hgame : Untouched session base game)
    {entries : List ShipBuildingQueue} (hentries : ∀ q ∈ entries, q.planet = planet) :
    Untouched session base (append game entries) := by
  have hown : ∀ q ∈ entries, ¬Foreign session (base.db.planets q.planet).user := fun q hq =>
    (hentries q hq).symm ▸ hplanet
  refine hgame.setOrders ?_ ?_ ?_
  · exact Backlog.waiting_foldl_enqueueAt_of_not _ _ _ fun q hq => decide_eq_false (hown q hq)
  · rw [Backlog.foldl_enqueueAt]
  · exact Table.pick_foldl_create_of_not _ fun q hq => decide_eq_false (hown q hq)

theorem insertAll_keeps (rules : Rules) (entries : List (ShipId × ℤ)) :
    Safe (Untouched session base) (insertAll rules planet entries) anything := by
  induction entries with
  | nil => exact Safe.pure trivial
  | cons entry entries ih =>
      refine Safe.bind (φ := anything) (Safe.get.bind fun game hgame => Safe.set ?_) fun _ _ => ih
      exact append_untouched hplanet hgame fun _ => planet_of_mem_entriesFor

theorem insert_keeps (rules : Rules) (s : Hash ShipId ℤ) :
    Safe (Untouched session base) (insert rules s planet) anything := by
  have htake : ∀ type number, Safe (Untouched session base) (onDb (Planet.take planet type number)) anything :=
    fun type number => untouched_onDb (Planet.take_keeps hplanet type number)
  have hgive : ∀ type number, Safe (Untouched session base) (onDb (Planet.give planet type number)) anything :=
    fun type number => untouched_onDb (Planet.give_keeps hplanet type number)
  refine (htake _ _).bind fun o _ => (htake _ _).bind fun c _ => ?_
  refine (htake _ _).bind fun m _ => (htake _ _).bind fun crew _ => Safe.ite (fun _ => ?_) fun _ => ?_
  · exact (insertAll_keeps hplanet rules _).bind fun _ _ => Safe.pure trivial
  · refine (hgive _ _).bind fun _ _ => (hgive _ _).bind fun _ _ => ?_
    exact (hgive _ _).bind fun _ _ => (hgive _ _).bind fun _ _ => Safe.pure trivial

theorem updateTime_keeps (t b : ℤ) : Safe (Untouched session base) (updateTime t planet b) anything := by
  have hown : ∀ q, endsAfter planet t q = true → ¬Foreign session (base.db.planets q.planet).user := by
    intro q hq
    rw [(of_decide_eq_true hq).1]
    exact hplanet
  refine Safe.get.bind fun game hgame => Safe.set (hgame.setOrders ?_ ?_ ?_)
  · refine Backlog.waiting_rescheduleAll_of_not _ _ _ fun q hq => ?_
    exact decide_eq_false (hown q (List.mem_filter.mp hq).2)
  · exact Backlog.ready_rescheduleAll _ _ _ _
  · refine Table.pick_mapRows_of_not fun q => ?_
    by_cases hends : endsAfter planet t q = true
    · rw [if_pos hends]
      exact .inr ⟨decide_eq_false (hown q hends), decide_eq_false (hown q hends)⟩
    · exact .inl (if_neg hends)

end ShipBuildingQueue

end Mmog

import Mmog.Homes.Hosts
import Mmog.Missions.Agreement

/-!
# Fleets that come home

A fleet that comes home, or travels to a planet of its user, joins the home fleet
there, if since the last battle that left none the planet got a ship or was
settled.
-/

namespace Mmog

open Ruby Action Fleet MissionsController Fight Board

/-! ## The arrival -/

/-- The ships and the cargo of a fleet were added to the home fleet of a planet, and the fleet is gone. -/
structure Welcomed (db next : Db) (id : FleetId) (row : FleetRow) (planet : PlanetId) (home : FleetId)
    (homeRow newRow : FleetRow) : Prop where
  found : db.fleets.first (Db.basedAt planet) = some home
  old : db.fleets.get home = some homeRow
  new : next.fleets.get home = some newRow
  gone : next.fleets.get id = none
  ships : amountOf newRow.shipfleets = amountOf homeRow.shipfleets + amountOf row.shipfleets
  cargo : newRow.attributes.toCargo = homeRow.attributes.toCargo + row.attributes.toCargo

/-- A home fleet takes the fleet in. -/
def Welcomes (db : Db) (id : FleetId) (row : FleetRow) (planet : PlanetId) (result : EStateM.Result Err Db Unit) : Prop :=
  ∃ next home homeRow newRow, result = .ok ⟨⟩ next ∧ Welcomed db next id row planet home homeRow newRow

theorem getHomeFleet_welcomes (w : World) {db : Db} {id : FleetId} {row : FleetRow} (hget : db.fleets.get id = some row)
    (hvalid : Valid row.shipfleets) (haway : row.attributes.missionId ≠ 1) {planet : PlanetId}
    (hhost : (db.fleets.first (Db.basedAt planet)).isSome = true) :
    Welcomes db id row planet ((do
      match ← getHomeFleet planet with
      | none => throw .noMethodError
      | some homeFleet => let _ ← homeFleet.mergeFleet w (some (ofRow id row)) : Act Unit).run db) := by
  obtain ⟨home, hfirst⟩ := Option.isSome_iff_exists.mp hhost
  obtain ⟨homeRow, hhome, hbased⟩ := Table.first_eq_some hfirst
  have hne : home ≠ id := by
    rintro rfl
    obtain rfl := Option.some.inj (hget.symm.trans hhome)
    exact haway (of_decide_eq_true hbased).1
  have hmerge := mergeFleet_apply w (show db.fleets.get (ofRow home homeRow).id = some homeRow from hhome)
    (show db.fleets.get (ofRow id row).id = some row from hget) hne hvalid
  let newRow : FleetRow :=
    ⟨(merged w db homeRow.shipfleets row.shipfleets (ofRow home homeRow) (ofRow id row)).toAttributes,
      added (shipsOf row.shipfleets) homeRow.shipfleets⟩
  have hnew : ((db.fleets.put home newRow).destroy id).get home = some newRow := by
    rw [Table.get_destroy_of_ne _ hne]
    exact (Table.get_put newRow hhome home).trans (if_pos rfl)
  rw [run_bind_of_ok (getHomeFleet_of_some hfirst hhome)]
  refine ⟨_, home, homeRow, newRow, run_bind_of_ok hmerge _, hfirst, hhome, hnew, Table.get_destroy_self _ id, ?_, ?_⟩
  · funext ship
    rw [amountOf_added, getD_shipsOf, Pi.add_apply]
  · exact valued_toCargo w db _ ((ofRow home homeRow).withCargoOf (ofRow id row)).toAttributes

/-- A return joins a home fleet at the origin of its fleet, and a travel to a planet of its fleet's user one there. -/
def Job.ComesHome (w : World) (draws : Draws) (db : Db) (job : Job) : Prop :=
  match job with
  | .returnToOrigin fleet => ∃ row action, db.fleets.get fleet = some row ∧ job.perform w draws = some action ∧
      Welcomes db fleet row row.attributes.originPlanet (action.run db)
  | .travelToPlanet fleet planet => ∀ row ∈ db.fleets.get fleet, db.relation row.attributes.user planet = .own →
      ∃ action, job.perform w draws = some action ∧ Welcomes db fleet row planet (action.run db)
  | _ => True

/-- No fleet whose job is run is stranded. -/
def Event.ComesHome (w : World) (db : Db) : Event → Prop
  | .work index draws => ∀ job ∈ db.ready[index]?, job.ComesHome w draws { db with ready := db.ready.eraseIdx index }
  | _ => True

/-! ## Planets with home fleets -/

/-- What a job changes in what is known of a planet: a colony gives it a home fleet, a lost battle takes it. -/
def Job.hosts (w : World) (draws : Draws) (db : Db) (job : Job) (hosts : PlanetId → Bool) (p : PlanetId) : Bool :=
  match job with
  | .colonizePlanet fleet planet => hosts p || decide (p = planet) && (db.fleets.get fleet).any fun row =>
      db.relation row.attributes.user planet = .unknown
  | .attackPlanet fleet planet => hosts p && !(decide (p = planet) && (db.fleets.get fleet).any fun row =>
      decide (Clears w draws db (ofRow fleet row) planet))
  | _ => hosts p

/-- Since the last battle that left nobody there, the planet got a ship for its owner or was settled. -/
def Event.hosts (w : World) (db : Db) (event : Event) (hosts : PlanetId → Bool) (p : PlanetId) : Bool :=
  match event with
  | .addShip _ planet => hosts p || decide (p = planet) && (db.planets planet).user.isSome
  | .work index draws => (db.ready[index]?).elim (hosts p) fun job => job.hosts w draws db hosts p
  | _ => hosts p

/-- The fleet of a return is there and not at home, and its origin is a host, as is the planet of its user that a
fleet travels to. -/
def Job.Expected (db : Db) (hosts : PlanetId → Bool) : Job → Prop
  | .returnToOrigin fleet => ∃ row ∈ db.fleets.get fleet, row.attributes.missionId ≠ 1 ∧
      hosts row.attributes.originPlanet = true
  | .travelToPlanet fleet planet => ∀ row ∈ db.fleets.get fleet, db.relation row.attributes.user planet = .own →
      hosts planet = true
  | _ => True

instance (db : Db) (hosts : PlanetId → Bool) : (job : Job) → Decidable (job.Expected db hosts)
  | .returnToOrigin _ | .travelToPlanet _ _ => by dsimp only [Job.Expected]; infer_instance
  | .buildBuildings _ _ | .produceResources _ | .attackPlanet _ _ | .colonizePlanet _ _ | .spyPlanet _ _ _ |
    .transportToPlanet _ _ => .isTrue True.intro

/-- The job that is run is expected. -/
def Event.Expected (state : Db × (PlanetId → Bool)) : Event → Prop
  | .work index _ => ∀ job ∈ state.1.ready[index]?, job.Expected state.1 state.2
  | _ => True

instance (state : Db × (PlanetId → Bool)) : (event : Event) → Decidable (event.Expected state)
  | .work _ _ => by dsimp only [Event.Expected]; infer_instance
  | .wait _ | .addShip _ _ | .check _ | .send _ | .breakup _ | .unload _ _ | .research _ _ _ | .schedule _ =>
    .isTrue True.intro

/-! ## Steps -/

section Step

variable {w : World} {draws : Draws} {db next : Db} {hosts : PlanetId → Bool} {index : ℕ} {job : Job} {action : Act Unit}

/-- A job of a fleet that is gone changes nothing. -/
theorem Job.hosts_of_none {id : FleetId} (hfleet : job.fleet? = some id) (hget : db.fleets.get id = none) :
    job.hosts w draws db hosts = hosts := by
  funext p
  cases job with
  | colonizePlanet fleet planet =>
      obtain rfl := Option.some.inj hfleet
      simp [Job.hosts, hget]
  | attackPlanet fleet planet =>
      obtain rfl := Option.some.inj hfleet
      simp [Job.hosts, hget]
  | _ => rfl

/-- The hosts that are known to have home fleets have them after a job. -/
theorem Job.perform_houses (hready : db.ready[index]? = some job) (hperform : job.perform w draws = some action)
    (hvalid : db.fleets.All fun row => Valid row.shipfleets) (hhouses : Houses (fun p => hosts p = true) db.board)
    (hexpected : job.Expected db hosts) : Houses (fun p => job.hosts w draws db hosts p = true)
      (after (action.run { db with ready := db.ready.eraseIdx index })).board := by
  obtain ⟨id, hfleet⟩ := Job.fleet?_of_perform hperform
  let taken : Db := { db with ready := db.ready.eraseIdx index }
  have htaken : Houses (fun p => hosts p = true) taken.board := hhouses.take hready
  cases hget : db.fleets.get id with
  | none =>
      rw [Job.perform_of_none hperform hfleet (show taken.fleets.get id = none from hget), Job.hosts_of_none hfleet hget]
      exact htaken
  | some row =>
      have hrow : taken.fleets.get id = some row := hget
      have hfind := find_of_some hrow
      have htakenValid : taken.fleets.All fun row => Valid row.shipfleets := hvalid
      -- only a return can be due for a home fleet
      have hmission : job.mission?.isSome = true → taken.board.missionsOf id = [] ∧ row.attributes.missionId ≠ 1 :=
        fun hsome => (hhouses.idle_of_taken hready hfleet hsome).imp_right fun haway => haway row hget
      cases job with
      | buildBuildings planet buildingtype => cases hperform
      | produceResources planet => cases hperform
      | attackPlanet self planet =>
          cases hperform
          obtain rfl := Option.some.inj hfleet
          rw [run_bind_of_ok hfind]
          have hattacked := htaken.attacks hrow (hmission rfl).2 (Fight.attack_attacks w draws planet htakenValid hrow)
          refine hattacked.mono fun p hp => ?_
          rw [Job.hosts, hget, Option.any_some, Bool.and_eq_true] at hp
          refine ⟨hp.1, fun hcleared => ?_⟩
          have hclears : Clears w draws db (ofRow self row) planet := hcleared.2
          rw [decide_eq_true hcleared.1, decide_eq_true hclears] at hp
          exact Bool.false_ne_true hp.2
      | colonizePlanet self planet =>
          cases hperform
          obtain rfl := Option.some.inj hfleet
          rw [run_bind_of_ok hfind]
          have hcolonized := htaken.colonizes hrow (hmission rfl).2 (hmission rfl).1 (colonize_colonizes w hrow planet)
          refine hcolonized.mono fun p hp => ?_
          rw [Job.hosts, hget, Option.any_some, Bool.or_eq_true, Bool.and_eq_true, decide_eq_true_eq, decide_eq_true_eq] at hp
          exact hp
      | travelToPlanet self planet =>
          cases hperform
          obtain rfl := Option.some.inj hfleet
          rw [run_bind_of_ok hfind]
          exact htaken.travels hrow (hmission rfl).2 (travel_travels w hrow (hvalid _ row hget) planet)
      | spyPlanet self planet factor =>
          cases hperform
          obtain rfl := Option.some.inj hfleet
          rw [run_bind_of_ok hfind]
          exact htaken.spies hrow (hmission rfl).2 (spy_spies w hrow draws.spyRate factor planet)
      | transportToPlanet self planet =>
          cases hperform
          obtain rfl := Option.some.inj hfleet
          rw [run_bind_of_ok hfind]
          exact htaken.transports hrow (hmission rfl).2 (transport_transports w hrow planet)
      | returnToOrigin self =>
          cases hperform
          obtain rfl := Option.some.inj hfleet
          obtain ⟨found, hfound, haway, -⟩ := hexpected
          obtain rfl := Option.some.inj (hget.symm.trans hfound)
          rw [run_bind_of_ok hfind]
          exact htaken.joins hrow haway (arriveHome_joins w hrow (hvalid _ row hget))

/-- A job that is expected brings its fleet home. -/
theorem Job.comesHome_of_expected (hready : db.ready[index]? = some job)
    (hvalid : db.fleets.All fun row => Valid row.shipfleets) (hhouses : Houses (fun p => hosts p = true) db.board)
    (hexpected : job.Expected db hosts) : job.ComesHome w draws { db with ready := db.ready.eraseIdx index } := by
  let taken : Db := { db with ready := db.ready.eraseIdx index }
  cases job with
  | returnToOrigin fleet =>
      obtain ⟨row, hget, haway, hhost⟩ := hexpected
      have hrow : taken.fleets.get fleet = some row := hget
      refine ⟨row, _, hget, rfl, ?_⟩
      rw [run_bind_of_ok (find_of_some hrow)]
      exact getHomeFleet_welcomes w hrow (hvalid fleet row hget) haway (hhouses.hosts _ hhost)
  | travelToPlanet fleet planet =>
      intro row hget hown
      have hrow : taken.fleets.get fleet = some row := hget
      have hrelation : taken.relation (ofRow fleet row).user planet = .own := hown
      have haway := (hhouses.idle_of_taken hready rfl rfl).2 row hget
      refine ⟨_, rfl, ?_⟩
      rw [run_bind_of_ok (find_of_some hrow), travel, run_bind_get, hrelation]
      exact getHomeFleet_welcomes w hrow (hvalid fleet row hget) haway (hhouses.hosts _ (hexpected row hget hown))
  | _ => trivial

/-- The hosts that are known to have home fleets have them after an event. -/
theorem step_houses {event : Event} (hvalid : db.fleets.All fun row => Valid row.shipfleets)
    (hhouses : Houses (fun p => hosts p = true) db.board) (hexpected : event.Expected (db, hosts))
    (hstep : step w db event = some next) : Houses (fun p => event.hosts w db hosts p = true) next.board := by
  cases event with
  | wait seconds =>
      cases hstep
      exact ⟨hhouses.based, hhouses.assigned, hhouses.once, hhouses.hosts⟩
  | addShip ship planet =>
      rw [settled_eq_some hstep]
      refine (hhouses.addShipToPlanet w ship planet).mono fun p hp => ?_
      rw [Event.hosts, Bool.or_eq_true, Bool.and_eq_true, decide_eq_true_eq] at hp
      exact hp
  | check params =>
      rw [settled_eq_some hstep]
      exact hhouses.check (check_outcome w db params)
  | send params =>
      rw [settled_eq_some hstep]
      exact hhouses.send w params
  | breakup fleet =>
      rw [settled_eq_some hstep]
      exact hhouses.breakup fleet
  | unload fleet planet =>
      rw [settled_eq_some hstep]
      exact hhouses.unload fleet planet
  | research user technology factor =>
      cases hstep
      exact ⟨hhouses.based, hhouses.assigned, hhouses.once, hhouses.hosts⟩
  | schedule index =>
      simp only [step] at hstep
      split at hstep
      · rename_i entry hentry
        split at hstep
        · cases hstep
          exact hhouses.schedule hentry
        · cases hstep
      · cases hstep
  | work index draws =>
      simp only [step] at hstep
      split at hstep
      · rename_i job hready
        split at hstep
        · rename_i action hperform
          have hdone := Job.perform_houses hready hperform hvalid hhouses (hexpected job hready)
          rw [settled_eq_some hstep]
          refine hdone.mono fun p hp => ?_
          rwa [Event.hosts, hready, Option.elim_some] at hp
        · cases hstep
      · cases hstep

theorem Db.Fresh.houses (hfresh : db.Fresh) : Houses (fun _ => false = true) db.board := by
  have hidle : ∀ id, db.board.missionsOf id = [] := fun id =>
    List.eq_nil_of_subset_nil (hfresh.jobsOf id ▸ db.board.missionsOf_subset id)
  refine ⟨hfresh.all _, fun id job hjob => ?_, fun id => ?_,
    fun _ hhost => absurd hhost Bool.false_ne_true⟩
  · rw [hidle] at hjob
    cases hjob
  · rw [hidle]
    exact Nat.zero_le 1

end Step

/-! ## Runs -/

/-- A freighter goes to planet 2 of the same user. -/
def relocation : Params where
  fleet := 1
  mission := 4
  planet := some 2
  ship ship := if ship = 1 then some 1 else none

/-- A drone looks at planet 11 and comes back, and the freighter stays at planet 2. -/
def errands : List Event :=
  [.addShip 7 1, .addShip 7 1, .addShip 1 1, .addShip 7 2, .send spying, .send relocation, .wait 100000, .schedule 0,
    .work 0 {}, .schedule 0, .work 0 {}, .wait 100000, .schedule 0, .work 0 {}]

end Mmog

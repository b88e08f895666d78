import Mmog.Ships.Split

/-!
# Delivered ships

A ship that is finished joins the home fleet of its planet, or becomes the
first ship of a new one.
-/

namespace Mmog

open Ruby Action

/-- The planet has a home fleet or an owner whose fleet a new one would be. -/
def Db.Receives (db : Db) (p : PlanetId) : Prop :=
  (db.fleets.first (Db.basedAt p)).isSome = true ∨ (db.planets p).user.isSome = true

instance (db : Db) (p : PlanetId) : Decidable (db.Receives p) :=
  inferInstanceAs (Decidable (_ ∨ _))

namespace Fleet

variable (w : World) {db : Db} {ship : ShipId} {planet : PlanetId}

theorem getHomeFleet_of_some {id : FleetId} {row : FleetRow}
    (hfirst : db.fleets.first (Db.basedAt planet) = some id) (hget : db.fleets.get id = some row) :
    (getHomeFleet planet).run db = .ok (some (ofRow id row)) db := by
  rw [getHomeFleet, run_bind_get, hfirst]
  exact run_map_of_ok (find_of_some hget) some

theorem getHomeFleet_of_none (hfirst : db.fleets.first (Db.basedAt planet) = none) :
    (getHomeFleet planet).run db = .ok none db := by
  rw [getHomeFleet, run_bind_get, hfirst]
  rfl

theorem addShipToPlanet_home {id : FleetId} {row : FleetRow}
    (hfirst : db.fleets.first (Db.basedAt planet) = some id) (hget : db.fleets.get id = some row) :
    (addShipToPlanet w ship planet).run db = .ok ⟨⟩ (db.setFleets (db.fleets.put id
      ⟨valued w db (added (.single ship 1) row.shipfleets) row.attributes,
        added (.single ship 1) row.shipfleets⟩)) := by
  rw [addShipToPlanet, run_bind_of_ok (getHomeFleet_of_some hfirst hget)]
  have hself : db.fleets.get (ofRow id row).id = some row := hget
  exact run_bind_of_ok (addShips_apply w hself rfl) _

theorem addShipToPlanet_new {user : UserId}
    (hfirst : db.fleets.first (Db.basedAt planet) = none)
    (howner : (db.planets planet).user = some user) :
    (addShipToPlanet w ship planet).run db = .ok ⟨⟩ (db.setFleets (db.fleets.create
      ⟨valued w db (added (.single ship 1) []) (newAttributes db planet user),
        added (.single ship 1) []⟩)) := by
  let new : Fleet := { newAttributes db planet user with id := db.fleets.nextId }
  have hcreated := Table.get_create_self db.fleets ⟨newAttributes db planet user, []⟩
  have hadd : (new.addShip w ship).run
      (db.setFleets (db.fleets.create ⟨newAttributes db planet user, []⟩)) =
        .ok (revalued w db (added (.single ship 1) []) new) (db.setFleets (db.fleets.create
          ⟨valued w db (added (.single ship 1) []) (newAttributes db planet user),
            added (.single ship 1) []⟩)) := by
    refine (addShips_apply w hcreated rfl).trans ?_
    simp only [Db.setFleets_setFleets, Db.fleets_setFleets]
    rw [show new.id = db.fleets.nextId from rfl, Table.put_create_self]
    rfl
  rw [addShipToPlanet, run_bind_of_ok (getHomeFleet_of_none hfirst)]
  refine (run_bind_of_ok (new_apply howner) _).trans ?_
  refine (run_bind_of_ok hadd _).trans ?_
  -- the object is saved once more as it is
  rw [save_apply (Table.get_create_self db.fleets _)]
  simp only [Db.setFleets_setFleets, Db.fleets_setFleets]
  rw [revalued_id, Table.put_create_self]
  rfl

theorem addShipToPlanet_nobody (hfirst : db.fleets.first (Db.basedAt planet) = none)
    (howner : (db.planets planet).user = none) :
    (addShipToPlanet w ship planet).run db = .error .noMethodError db := by
  rw [addShipToPlanet, run_bind_of_ok (getHomeFleet_of_none hfirst)]
  exact run_bind_of_error (new_of_unowned howner) _

variable (ship) in
/-- A ship is delivered exactly if somebody is there to get it. -/
theorem addShipToPlanet_returned_iff :
    returned ((addShipToPlanet w ship planet).run db) = true ↔ db.Receives planet := by
  rw [Db.Receives]
  cases hfirst : db.fleets.first (Db.basedAt planet) with
  | some id =>
      obtain ⟨row, hget, -⟩ := Table.first_eq_some hfirst
      rw [addShipToPlanet_home w hfirst hget]
      simp
  | none =>
      cases howner : (db.planets planet).user with
      | some user =>
          rw [addShipToPlanet_new w hfirst howner]
          simp
      | none =>
          rw [addShipToPlanet_nobody w hfirst howner]
          simp

end Fleet

end Mmog

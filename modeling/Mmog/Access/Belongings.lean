import Mmog.Game.Frame
import Mmog.Model.Session

/-!
# What belongs to others

The part of the game that belongs to users other than that of the session.
Writing rows of the session's user, or of nobody, leaves it as it is.
-/

namespace Mmog

open Ruby Action

/-- Somebody else than the user of the session owns it. -/
def Foreign (session owner : Option UserId) : Prop := owner ≠ none ∧ owner ≠ session

instance (session owner : Option UserId) : Decidable (Foreign session owner) :=
  inferInstanceAs (Decidable (_ ∧ _))

variable {session : Option UserId}

theorem not_foreign_session (session : Option UserId) : ¬Foreign session session := fun h => h.2 rfl

/-- What has an owner and is not foreign belongs to the session. -/
theorem eq_session_of_not_foreign {owner : Option UserId} {user : UserId} (hown : ¬Foreign session owner)
    (huser : owner = some user) : some user = session := by
  by_contra hne
  exact hown ⟨by rw [huser]; exact Option.some_ne_none user, by rwa [huser]⟩

def FleetRow.foreign (session : Option UserId) (row : FleetRow) : Bool := some row.attributes.user ≠ session

/-- The job is that of a foreign fleet or planet. -/
def Job.foreign (session : Option UserId) (db : Db) (job : Job) : Bool :=
  match job with
  | .buildBuildings planet _ => Foreign session (db.planets planet).user
  | .produceResources planet => Foreign session (db.planets planet).user
  | job => job.fleet?.any fun fleet => (db.fleets.pick (FleetRow.foreign session) fleet).isSome

namespace Db

/-- Planets, fleets, users and jobs that belong to others are the same. -/
structure KeepsOthers (session : Option UserId) (base db : Db) : Prop where
  owner : ∀ p, (db.planets p).user = (base.planets p).user
  planets : ∀ p, Foreign session (base.planets p).user → db.planets p = base.planets p
  users : ∀ v, some v ≠ session → db.users v = base.users v
  buildings : db.buildings = base.buildings
  fleets : ∀ id, db.fleets.pick (FleetRow.foreign session) id = base.fleets.pick (FleetRow.foreign session) id
  delayed : (db.delayed.filter fun entry => entry.job.foreign session base) =
    base.delayed.filter fun entry => entry.job.foreign session base
  ready : db.ready = base.ready

namespace KeepsOthers

variable {base db : Db}

theorem refl (base : Db) : KeepsOthers session base base :=
  ⟨fun _ => rfl, fun _ _ => rfl, fun _ _ => rfl, rfl, fun _ => rfl, rfl, rfl⟩

variable (hdb : KeepsOthers session base db)

include hdb

theorem setPlanet {p : PlanetId} (hp : ¬Foreign session (base.planets p).user) {planet : Planet}
    (huser : planet.user = (db.planets p).user) : KeepsOthers session base (db.setPlanet p planet) where
  owner q := by
    change (if q = p then planet else db.planets q).user = _
    split
    · rename_i heq
      rw [huser, heq, hdb.owner]
    · exact hdb.owner q
  planets q hq := by
    have hne : q ≠ p := by
      rintro rfl
      exact hp hq
    exact (if_neg hne).trans (hdb.planets q hq)
  users := hdb.users
  buildings := hdb.buildings
  fleets := hdb.fleets
  delayed := hdb.delayed
  ready := hdb.ready

theorem setMoney {v : UserId} (hv : some v = session) (money : ℤ) :
    KeepsOthers session base (db.setMoney v money) where
  owner := hdb.owner
  planets := hdb.planets
  users other hother := by
    have hne : other ≠ v := by
      rintro rfl
      exact hother hv
    exact (if_neg hne).trans (hdb.users other hother)
  buildings := hdb.buildings
  fleets := hdb.fleets
  delayed := hdb.delayed
  ready := hdb.ready

theorem setFleets {fleets : Table FleetRow} (hfleets : ∀ id,
    fleets.pick (FleetRow.foreign session) id = db.fleets.pick (FleetRow.foreign session) id) :
    KeepsOthers session base (db.setFleets fleets) where
  owner := hdb.owner
  planets := hdb.planets
  users := hdb.users
  buildings := hdb.buildings
  fleets id := (hfleets id).trans (hdb.fleets id)
  delayed := hdb.delayed
  ready := hdb.ready

theorem enqueue (timestamp : ℤ) {job : Job} (hjob : job.foreign session base = false) :
    KeepsOthers session base { db with delayed := db.delayed ++ [⟨timestamp, job⟩] } where
  owner := hdb.owner
  planets := hdb.planets
  users := hdb.users
  buildings := hdb.buildings
  fleets := hdb.fleets
  delayed := by
    rw [List.filter_append, hdb.delayed, List.filter_singleton, hjob]
    exact List.append_nil _
  ready := hdb.ready

theorem remove {job : Job} (hjob : job.foreign session base = false) :
    KeepsOthers session base { db with delayed := db.delayed.filter fun entry => entry.job ≠ job } where
  owner := hdb.owner
  planets := hdb.planets
  users := hdb.users
  buildings := hdb.buildings
  fleets := hdb.fleets
  delayed := by
    rw [← hdb.delayed, List.filter_filter]
    refine List.filter_congr fun entry _ => ?_
    by_cases heq : entry.job = job
    · simp [heq, hjob]
    · simp [heq]
  ready := hdb.ready

end KeepsOthers

end Db

open Db (KeepsOthers)

/-! ## Stocks -/

section Stock

variable {base : Db} {p : PlanetId} (hp : ¬Foreign session (base.planets p).user)

include hp

theorem Planet.take_keeps (type : Resource) (number : Numeric) :
    Safe (KeepsOthers session base) (Planet.take p type number) anything := by
  intro db hdb
  refine ⟨?_, fun _ _ => trivial⟩
  have hstock : ∀ n, KeepsOthers session base (db.setPlanet p ((db.planets p).setStock type n)) :=
    fun n => hdb.setPlanet hp (by cases type <;> rfl)
  unfold Planet.take
  by_cases hnumber : number ≤ 0
  · rw [if_pos hnumber]
    exact hdb
  · rw [if_neg hnumber, run_bind_get]
    cases type with
    | other => exact hdb
    | money =>
        cases huser : (db.planets p).user with
        | none => exact hdb
        | some u => exact hdb.setMoney (eq_session_of_not_foreign hp ((hdb.owner p).symm.trans huser)) _
    | ore => exact hstock _
    | crystal => exact hstock _
    | population => exact hstock _
    | energy => exact hstock _

theorem Planet.give_keeps (type : Resource) (number : Numeric) :
    Safe (KeepsOthers session base) (Planet.give p type number) anything := by
  intro db hdb
  refine ⟨?_, fun _ _ => trivial⟩
  have hstock : ∀ n, KeepsOthers session base (db.setPlanet p ((db.planets p).setStock type n)) :=
    fun n => hdb.setPlanet hp (by cases type <;> rfl)
  unfold Planet.give
  by_cases hnumber : number ≤ 0
  · rw [if_pos hnumber]
    exact hdb
  · rw [if_neg hnumber, run_bind_get]
    cases type with
    | other => exact hdb
    | money =>
        cases huser : (db.planets p).user with
        | none => exact hdb
        | some u => exact hdb.setMoney (eq_session_of_not_foreign hp ((hdb.owner p).symm.trans huser)) _
    | ore => exact hstock _
    | crystal => exact hstock _
    | population => exact hstock _
    | energy => exact hstock _

end Stock

/-! ## Fleets -/

namespace Fleet

/-- The object and the row under its id are no foreign fleet. -/
structure Own (session : Option UserId) (base : Db) (fleet : Fleet) : Prop where
  user : some fleet.user = session
  row : base.fleets.pick (FleetRow.foreign session) fleet.id = none

/-- So is the planet on which the fleet is based. -/
structure Based (session : Option UserId) (base : Db) (fleet : Fleet) : Prop extends Own session base fleet where
  origin : ¬Foreign session (base.planets fleet.originPlanet).user

/-- The same fleet, user and origin. -/
structure Follows (fleet other : Fleet) : Prop where
  id : other.id = fleet.id
  user : other.user = fleet.user
  origin : other.originPlanet = fleet.originPlanet

variable {base : Db} {self other : Fleet}

theorem Follows.refl (self : Fleet) : Follows self self := ⟨rfl, rfl, rfl⟩

theorem Follows.trans {third : Fleet} (hfirst : Follows self other) (hsecond : Follows other third) :
    Follows self third :=
  ⟨hsecond.id.trans hfirst.id, hsecond.user.trans hfirst.user, hsecond.origin.trans hfirst.origin⟩

theorem Own.follows (hself : Own session base self) (hfollows : Follows self other) :
    Own session base other :=
  ⟨by rw [hfollows.user, hself.user], by rw [hfollows.id, hself.row]⟩

theorem Based.follows (hself : Based session base self) (hfollows : Follows self other) :
    Based session base other :=
  ⟨hself.toOwn.follows hfollows, by rw [hfollows.origin]; exact hself.origin⟩

theorem withValues_follows (w : World) (setting : UserSetting) (ships : Hash ShipId ℤ) (self : Fleet) :
    Follows self { withValues w setting ships self.toAttributes with id := self.id } := by
  unfold withValues
  dsimp only
  split
  · exact ⟨rfl, rfl, rfl⟩
  · exact ⟨rfl, rfl, rfl⟩

theorem Own.job (hself : Own session base self) {job : Job} (hjob : job.fleet? = some self.id) :
    job.foreign session base = false := by
  have hpick : (base.fleets.pick (FleetRow.foreign session) self.id).isSome = false := by
    rw [hself.row]
    rfl
  cases job with
  | buildBuildings planet buildingtype => cases hjob
  | produceResources planet => cases hjob
  | attackPlanet fleet planet =>
      cases hjob
      exact hpick
  | colonizePlanet fleet planet =>
      cases hjob
      exact hpick
  | travelToPlanet fleet planet =>
      cases hjob
      exact hpick
  | spyPlanet fleet planet factor =>
      cases hjob
      exact hpick
  | transportToPlanet fleet planet =>
      cases hjob
      exact hpick
  | returnToOrigin fleet =>
      cases hjob
      exact hpick

/-! ### Rows -/

section Rows

variable (hself : Own session base self)

include hself

/-- The row of an own fleet, if there is one, is not foreign. -/
theorem Own.not_foreign {db : Db} (hdb : KeepsOthers session base db) {row : FleetRow}
    (hrow : db.fleets.get self.id = some row) : row.foreign session = false := by
  have hnone := (hdb.fleets self.id).trans hself.row
  rw [Table.pick, hrow, Option.filter_some] at hnone
  simpa using hnone

theorem Own.modify {change : FleetRow → FleetRow}
    (hchange : ∀ row, row.foreign session = false → (change row).foreign session = false) :
    Safe (KeepsOthers session base)
      (modify fun db => db.setFleets (db.fleets.modify self.id change) : Act Unit) anything :=
  Safe.modify fun _ hdb => hdb.setFleets fun id => Table.pick_modify_of_not
    (fun row hrow => ⟨hself.not_foreign hdb hrow, hchange row (hself.not_foreign hdb hrow)⟩) id

theorem Own.save : Safe (KeepsOthers session base) self.save anything :=
  hself.modify fun _ _ => decide_eq_false (not_not.mpr hself.user)

theorem Own.writeShipfleets (change : List Shipfleet → List Shipfleet) :
    Safe (KeepsOthers session base) (self.writeShipfleets change) anything :=
  hself.modify fun _ hrow => hrow

theorem Own.destroy : Safe (KeepsOthers session base) self.destroy anything :=
  Safe.modify fun _ hdb => hdb.setFleets fun id => Table.pick_destroy_of_not
    (fun _ hrow => hself.not_foreign hdb hrow) id

theorem Own.enqueueAt (timestamp : ℤ) {job : Job} (hjob : job.fleet? = some self.id) :
    Safe (KeepsOthers session base) (Resque.enqueueAt timestamp job) anything :=
  Safe.modify fun _ hdb => hdb.enqueue timestamp (hself.job hjob)

theorem Own.removeDelayed {job : Job} (hjob : job.fleet? = some self.id) :
    Safe (KeepsOthers session base) (Resque.removeDelayed job) anything :=
  Safe.modify fun _ hdb => hdb.remove (hself.job hjob)

end Rows

/-- A found fleet is own if the row in the base is. -/
theorem find_follows {id : FleetId} (hid : base.fleets.pick (FleetRow.foreign session) id = none) :
    Safe (KeepsOthers session base) (find id) (Own session base) := by
  refine Safe.get.bind fun db hdb => ?_
  cases hget : db.fleets.get id with
  | none => exact Safe.throw _ _
  | some row =>
      refine Safe.pure ⟨?_, hid⟩
      have hnone := (hdb.fleets id).trans hid
      rw [Table.pick, hget, Option.filter_some] at hnone
      simpa [FleetRow.foreign] using hnone

end Fleet

end Mmog

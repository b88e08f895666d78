import Mmog.Missions.Flights
import Mmog.Model.Seeds

/-!
# Calling back

A fleet that is called back flies as long as it has flown.  On its outward
flight that is the way back.  For a fleet that is stationed or already on its
way home the clock started anew, and the time since says nothing about the way.
-/

namespace Mmog

open Ruby Action Fleet

/-! ## When a fleet left -/

/-- The game with a note of when each fleet came into being, which is when it left if it is on a mission. -/
structure Logbook where
  db : Db
  left : FleetId → ℕ

namespace Logbook

/-- A step of the game; a fleet that was not there before leaves now. -/
def step (w : World) (book : Logbook) (event : Event) : Option Logbook :=
  (Mmog.step w book.db event).map fun db =>
    ⟨db, fun id => if (book.db.fleets.get id).isSome then book.left id else book.db.now⟩

/-- The departure time of a fleet on its outward flight is when it left. -/
structure Kept (book : Logbook) : Prop where
  valid : book.db.fleets.All fun row => Valid row.shipfleets
  departed : ∀ id row, book.db.fleets.get id = some row → row.attributes.Outward →
    row.attributes.departureTime = book.left id

variable {w : World} {book next : Logbook} {event : Event}

theorem Kept.step (hkept : book.Kept) (hstep : book.step w event = some next) : next.Kept := by
  obtain ⟨db, hdb, rfl⟩ := Option.map_eq_some_iff.mp hstep
  have hfleets := (step_flies hkept.valid hdb).fleets
  refine ⟨step_valid hkept.valid hdb, fun id new hget houtward => ?_⟩
  obtain ⟨row, hrow, hevolves⟩ | ⟨hid, hnew⟩ := hfleets.origin id new hget
  · have hroute := hevolves.route houtward
    rw [hroute] at houtward
    rw [hroute, hkept.departed id row hrow houtward]
    exact congrArg Nat.cast (if_pos (Option.isSome_of_mem hrow)).symm
  · have hnone : book.db.fleets.get id = none := book.db.fleets.fresh id hid
    rw [hnew.time houtward]
    refine congrArg Nat.cast (if_neg ?_).symm
    rw [hnone]
    exact Bool.false_ne_true

/-- The logbook is kept along every run. -/
theorem kept_of_run {start : Db} (hfresh : start.Fresh) {left : FleetId → ℕ} {events : List Event}
    (hrun : run (step w) ⟨start, left⟩ events = some book) : book.Kept := by
  have hstart : Kept ⟨start, left⟩ := by
    refine ⟨hfresh.all _, fun id row hget => ?_⟩
    cases (hfresh.get id).symm.trans hget
  exact run_invariant (fun _ _ _ hkept hstep => hkept.step hstep) hstart hrun

end Logbook

/-! ## The way back -/

section Callback

variable (w : World) (now : ℕ) (row : FleetRow)

/-- The time a flight from the target of the fleet to its origin takes. -/
def wayBack : Option Numeric :=
  (flightOf w row.attributes.velocityFactor row.shipfleets
    (w.getDistance row.attributes.originPlanet row.attributes.targetPlanet)).map Prod.fst

/-- A fleet that left at a time and is called back now pays for the way back. -/
structure PaysWayBack (left : ℕ) (new : FleetRow) : Prop where
  outward : row.attributes.Outward → new.attributes.arrivalTime - now = (now : ℤ) - left
  stationed : row.attributes.Stationed → ∀ time, wayBack w row = some time →
    time ≤ ((new.attributes.arrivalTime - now : ℤ) : Numeric)
  returning : row.attributes.Returning → row.attributes.arrivalTime ≤ new.attributes.arrivalTime

/-- The fleet has been stationed for as long as it flies home, or has flown back for as long as it still has to. -/
structure StayedLong : Prop where
  stationed : row.attributes.Stationed → ∀ time, wayBack w row = some time →
    time ≤ ((now - row.attributes.departureTime : ℤ) : Numeric)
  returning : row.attributes.Returning →
    row.attributes.arrivalTime - now ≤ now - row.attributes.departureTime

end Callback

/-- What a breakup that returns leaves. -/
theorem breakup_returns {db next : Db} {id : FleetId} (hbreak : (FleetsController.breakup id).run db = .ok ⟨⟩ next) :
    ∃ row, db.fleets.get id = some row ∧ next.board = brokenBoard db.board (ofRow id row) row.shipfleets := by
  have hbreaks := breakup_breaksUp db id
  rw [hbreak, after_ok] at hbreaks
  cases hbreaks with
  | missing hget =>
      rw [FleetsController.breakup, run_bind_of_error (find_of_none hget)] at hbreak
      cases hbreak
  | based row hget hmission =>
      rw [FleetsController.breakup, run_bind_of_ok (find_of_some hget), breakupMission,
        if_pos (show (ofRow id row).missionId = 1 from hmission)] at hbreak
      cases hbreak
  | back row next hget hmission hboard => exact ⟨row, hget, hboard⟩

/-- The fleet that was called back, and its return. -/
theorem brokenBoard_back {board : Board} {id : FleetId} {row : FleetRow} (hget : board.fleets.get id = some row) :
    let back := brokenUp board.now (ofRow id row)
    (brokenBoard board (ofRow id row) row.shipfleets).fleets.get id = some ⟨back.toAttributes, row.shipfleets⟩ ∧
      ⟨back.arrivalTime, .returnToOrigin id⟩ ∈ (brokenBoard board (ofRow id row) row.shipfleets).delayed :=
  ⟨(Table.get_put _ hget id).trans (if_pos rfl), List.mem_append_right _ (List.mem_singleton_self _)⟩

/-- Whatever was played before, a breakup that returns costs the way back exactly if the fleet is on its outward
flight, or the time since it was stationed or turned round is long enough. -/
theorem breakup_pays_iff (w : World) {start : Db} (hfresh : start.Fresh) {events : List Event} {book : Logbook}
    (hrun : run (Logbook.step w) ⟨start, fun _ => start.now⟩ events = some book) {id : FleetId} {next : Db}
    (hbreak : (FleetsController.breakup id).run book.db = .ok ⟨⟩ next) :
    ∃ row new, book.db.fleets.get id = some row ∧ next.fleets.get id = some new ∧
      ⟨new.attributes.arrivalTime, .returnToOrigin id⟩ ∈ next.delayed ∧
      (PaysWayBack w book.db.now row (book.left id) new ↔ StayedLong w book.db.now row) := by
  obtain ⟨row, hget, hboard⟩ := breakup_returns hbreak
  obtain ⟨hnew, hjob⟩ := brokenBoard_back (show book.db.board.fleets.get id = some row from hget)
  refine ⟨row, _, hget, (congrArg (Table.get · id) (congrArg Board.fleets hboard)).trans hnew,
    (congrArg (_ ∈ ·) (congrArg Board.delayed hboard)).mpr hjob, ?_⟩
  have hback : (brokenUp book.db.now (ofRow id row)).arrivalTime - book.db.now =
      book.db.now - row.attributes.departureTime := add_sub_cancel_left _ _
  constructor
  · rintro ⟨-, hstationed, hreturning⟩
    refine ⟨fun hthere time htime => ?_, fun hhome => ?_⟩
    · rw [← hback]
      exact hstationed hthere time htime
    · rw [← hback]
      exact sub_le_sub_right (hreturning hhome) _
  · rintro ⟨hstationed, hreturning⟩
    refine ⟨fun houtward => ?_, fun hthere time htime => ?_, fun hhome => ?_⟩
    · rw [← (Logbook.kept_of_run hfresh hrun).departed id row hget houtward]
      exact hback
    · exact hback.symm ▸ hstationed hthere time htime
    · exact (sub_le_sub_iff_right _).mp ((hreturning hhome).trans_eq hback.symm)

/-! ## Called back at once -/

/-- Two allied users. -/
def alliedStart : Db := { Seeds.start with users := fun _ => { money := 20000, alliance := some 1, userSetting := {} } }

theorem alliedStart_fresh : alliedStart.Fresh := ⟨rfl, nofun, nofun⟩

/-- A fighter travels to the planet of the other user. -/
def visit : Params where
  fleet := 1
  mission := 4
  planet := some 11
  ship ship := if ship = 3 then some 1 else none

/-- The fighter has been under way for some seconds. -/
def visiting (seconds : ℕ) : List Event := [.addShip 3 1, .addShip 3 1, .send visit, .wait seconds]

/-- The fighter has arrived and is stationed with the ally. -/
def visited : List Event := visiting 8 ++ [.schedule 0, .work 0 {}]

/-- The logbook of two allies after some events. -/
def bookOf (events : List Event) : Option Logbook :=
  run (Logbook.step Seeds.world) ⟨alliedStart, fun _ => alliedStart.now⟩ events

/-- What holds of the logbook after some events. -/
theorem exists_bookOf (events : List Event) (test : Logbook → Bool) (htest : (bookOf events).any test = true) :
    ∃ book, bookOf events = some book ∧ test book = true := by
  rwa [Option.any_eq_true] at htest

/-- After five seconds the fighter flies back for five seconds. -/
theorem breakup_pays_iff_visiting : ∃ (book : Logbook) (next : Db) (row new : FleetRow),
    bookOf (visiting 5) = some book ∧ (FleetsController.breakup 3).run book.db = .ok ⟨⟩ next ∧ book.db.fleets.get 3 = some row ∧ next.fleets.get 3 = some new ∧
    ⟨new.attributes.arrivalTime, .returnToOrigin 3⟩ ∈ next.delayed ∧
    (PaysWayBack Seeds.world book.db.now row (book.left 3) new ↔ StayedLong Seeds.world book.db.now row) := by
  obtain ⟨book, hbook, hreturned⟩ := exists_bookOf (visiting 5)
    (fun book => returned ((FleetsController.breakup 3).run book.db)) (by decide +kernel)
  obtain ⟨_, hbreak⟩ := exists_of_returned hreturned
  obtain ⟨row, new, hpays⟩ := breakup_pays_iff Seeds.world alliedStart_fresh hbook hbreak
  exact ⟨book, _, row, new, hbook, hbreak, hpays⟩

/-- A fighter that is called back on its arrival is home in no time. -/
theorem breakup_at_once :
    ¬∀ (w : World) (start : Db) (events : List Event) (book : Logbook) (id : FleetId) (next : Db), start.Fresh →
      run (Logbook.step w) ⟨start, fun _ => start.now⟩ events = some book →
      (FleetsController.breakup id).run book.db = .ok ⟨⟩ next →
      ∃ row new, book.db.fleets.get id = some row ∧ next.fleets.get id = some new ∧
        PaysWayBack w book.db.now row (book.left id) new := by
  intro hall
  obtain ⟨book, hbook, htest⟩ := exists_bookOf visited (fun book =>
    let result := (FleetsController.breakup 3).run book.db
    returned result && (book.db.fleets.get 3).any fun row => ((after result).fleets.get 3).any fun new =>
      (wayBack Seeds.world row).any fun time => row.attributes.Stationed ∧
        ¬time ≤ ((new.attributes.arrivalTime - book.db.now : ℤ) : Numeric)) (by decide +kernel)
  obtain ⟨hreturned, hearly⟩ := Bool.and_eq_true_iff.mp htest
  obtain ⟨_, hbreak⟩ := exists_of_returned hreturned
  obtain ⟨row, new, hrow, hnew, hpays⟩ := hall Seeds.world alliedStart visited book 3 _ alliedStart_fresh hbook hbreak
  rw [hrow, Option.any_some, hnew, Option.any_some, Option.any_eq_true] at hearly
  obtain ⟨time, htime, hless⟩ := hearly
  obtain ⟨hthere, hlate⟩ := of_decide_eq_true hless
  exact hlate (hpays.stationed hthere time htime)

end Mmog

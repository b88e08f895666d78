import Mmog.Missions.AllOrNothing

/-!
# What a check does

`check_helper` splits the fleet, asks what the new one needs, and merges the
two again.  Each way it can end, and what it has made sure of when it finds
nothing wrong.
-/

namespace Mmog

open Ruby Action Fleet

namespace MissionsController

variable (w : World) (db : Db) (params : Params)

/-- The complaints that do not depend on the split. -/
def earlyErrors (planet1 : PlanetId) (stock : Planet) : List String :=
  (if (Mission.find params.mission).isNone then ["Fehlerhafte Eingabe der Mission"] else []) ++
    (if params.planet.isNone then ["Fehlerhafte Eingabe des Zielplaneten"] else []) ++
    harmlessErrors w params planet1 stock

/-- What the check takes the energy to be. -/
def comparedEnergy (energy : Numeric) : Numeric :=
  ((Mission.find params.mission).map fun mission => doubled mission energy).getD energy

/-- The new fleet of the split that the check makes. -/
def temporary (self : Fleet) (row : FleetRow) (user : UserId) : Fleet :=
  (leaving w db (params.shipHash w) user self).withCargo
    (splitCargo w db (params.shipHash w) user row.shipfleets self).2

/-- The flight of the temporary fleet. -/
def checkNeeds (self : Fleet) (user : UserId) : Option (Numeric × Numeric) :=
  flightOf w (leaving w db (params.shipHash w) user self).velocityFactor
    (added (params.shipHash w) []) (w.distanceTo self.originPlanet params.planet)

/-- All complaints of a check that gets as far as the split. -/
def allErrors (self : Fleet) (row : FleetRow) (user : UserId) : List String :=
  earlyErrors w params self.originPlanet (db.planets self.originPlanet) ++
    criticalErrors params (db.planets self.originPlanet)
      ((checkNeeds w db params self user).map fun (_, energy) => comparedEnergy params energy)
      (some (temporary w db params self row user))

/-- The ways a check can end. -/
inductive CheckOutcome : EStateM.Result Err Db (List String) → Prop
  | missing (hget : db.fleets.get params.fleet = none) : CheckOutcome (.error .noMethodError db)
  | early (row : FleetRow) (fehler : List String) (hget : db.fleets.get params.fleet = some row)
      (hfehler : fehler ≠ [])
      (hearly : (params.shipHash w).entries = [] ∨
        ¬ enoughShips? row.shipfleets (params.shipHash w) = true) :
      CheckOutcome (.ok fehler db)
  | unowned (row : FleetRow) (hget : db.fleets.get params.fleet = some row)
      (hships : (params.shipHash w).entries ≠ [])
      (henough : enoughShips? row.shipfleets (params.shipHash w) = true)
      (howner : (db.planets row.attributes.originPlanet).user = none) :
      CheckOutcome (.error (.runtimeError invalidInput) (db.setFleets (db.fleets.put params.fleet
        ⟨valued w db row.shipfleets row.attributes, row.shipfleets⟩)))
  | leftSplit (row : FleetRow) (user : UserId) (hget : db.fleets.get params.fleet = some row)
      (hships : (params.shipHash w).entries ≠ [])
      (henough : enoughShips? row.shipfleets (params.shipHash w) = true)
      (howner : (db.planets row.attributes.originPlanet).user = some user)
      (hfails : SplitFails w db (params.shipHash w) row.shipfleets (ofRow params.fleet row)) :
      CheckOutcome (.error (.runtimeError invalidInput) (db.setFleets
        (splitTable w db (params.shipHash w) user row.shipfleets (ofRow params.fleet row))))
  | undone (row : FleetRow) (user : UserId) (hget : db.fleets.get params.fleet = some row)
      (hships : (params.shipHash w).entries ≠ [])
      (henough : enoughShips? row.shipfleets (params.shipHash w) = true)
      (howner : (db.planets row.attributes.originPlanet).user = some user)
      (hfails : ¬ SplitFails w db (params.shipHash w) row.shipfleets (ofRow params.fleet row)) :
      CheckOutcome (.ok (allErrors w db params (ofRow params.fleet row) row user)
        (db.setFleets (db.fleets.put params.fleet
          (restored w db row.shipfleets (ofRow params.fleet row)
            ((splitCargo w db (params.shipHash w) user row.shipfleets (ofRow params.fleet row)).1 +
              (splitCargo w db (params.shipHash w) user row.shipfleets
                (ofRow params.fleet row)).2))).skip))

/-- The part of the check that comes after the split. -/
def checkSplit (self : Fleet) (stock : Planet) : Option (Fleet × Fleet) → Act (List String)
  | none => raise invalidInput
  | some (fleet, newFleet) => do
      let needed ← tryCatch
        (some <$> newFleet.flight w (w.distanceTo self.originPlanet params.planet)) fun _ => pure none
      let fehler := earlyErrors w params self.originPlanet stock ++
        criticalErrors params stock
          (needed.map fun (_, energy) => comparedEnergy params energy) (some newFleet)
      let _ ← fleet.mergeFleet w (some newFleet)
      return fehler

variable {db params}

theorem run_rescue_of_ok {α : Type} {action : Act α} {value : α} {before next : Db}
    (hok : action.run before = .ok value next) :
    (tryCatch (some <$> action) fun _ => pure none : Act (Option α)).run before =
      .ok (some value) next := by
  rw [run_tryCatch, run_map_of_ok hok]

theorem run_rescue_of_error {α : Type} {action : Act α} {err : Err} {before next : Db}
    (herror : action.run before = .error err next) :
    (tryCatch (some <$> action) fun _ => pure none : Act (Option α)).run before =
      .ok none next := by
  rw [run_tryCatch, run_map, herror]
  rfl

variable (db params) in
/-- Every check has one of the outcomes. -/
theorem check_outcome : CheckOutcome w db params ((checkHelper w params).run db) := by
  cases hget : db.fleets.get params.fleet with
  | none =>
      have hrun : (checkHelper w params).run db = .error .noMethodError db := by
        rw [checkHelper, run_bind_of_ok (run_rescue_of_error (find_of_none hget))]
        rfl
      rw [hrun]
      exact .missing hget
  | some row =>
      let self := ofRow params.fleet row
      have hfind := run_rescue_of_ok (find_of_some hget)
      by_cases hships : (params.shipHash w).entries = []
      · have hrun : (checkHelper w params).run db = .ok
            (earlyErrors w params self.originPlanet (db.planets self.originPlanet) ++
              ["Bitte Schiffe auswählen"]) db := by
          rw [checkHelper, run_bind_of_ok hfind]
          dsimp only
          rw [run_bind_get, if_pos hships]
          rfl
        rw [hrun]
        exact .early row _ hget (by simp) (.inl hships)
      by_cases henough : enoughShips? row.shipfleets (params.shipHash w) = true
      swap
      · have hrun : (checkHelper w params).run db = .ok
            (earlyErrors w params self.originPlanet (db.planets self.originPlanet) ++
              ["Nicht genügend Schiffe vorhanden"]) db := by
          rw [checkHelper, run_bind_of_ok hfind]
          dsimp only
          rw [run_bind_get, if_neg hships,
            run_bind_of_ok (shipfleets_apply hget),
            if_pos (by simpa using henough)]
          rfl
        rw [hrun]
        exact .early row _ hget (by simp) (.inr henough)
      -- from here on the check runs its split
      have hsplit : ∀ {split : Option (Fleet × Fleet)} {middle : Db},
          (tryCatch (some <$> self.splitFleet w (params.shipHash w)) fun _ =>
            pure none : Act (Option (Fleet × Fleet))).run db = .ok split middle →
          (checkHelper w params).run db = (checkSplit w params self
            (db.planets self.originPlanet) split).run middle := by
        intro split middle hsplit
        rw [checkHelper, run_bind_of_ok hfind]
        dsimp only
        rw [run_bind_get, if_neg hships,
          run_bind_of_ok (shipfleets_apply hget),
          if_neg (by simp [henough])]
        exact run_bind_of_ok hsplit _
      cases howner : (db.planets self.originPlanet).user with
      | none =>
          rw [hsplit (run_rescue_of_error (splitFleet_of_unowned w hget henough howner))]
          exact .unowned row hget hships henough howner
      | some user =>
          by_cases hfails : SplitFails w db (params.shipHash w) row.shipfleets self
          · rw [hsplit (run_rescue_of_error (splitFleet_fails w hget henough howner hfails))]
            exact .leftSplit row user hget hships henough howner hfails
          rw [hsplit (run_rescue_of_ok (splitFleet_ok w hget henough howner hfails))]
          obtain ⟨next, whole, hmerge, rfl⟩ := mergeFleet_split w
            (show db.fleets.get self.id = some row from hget) henough
            (splitCargo w db (params.shipHash w) user row.shipfleets self).1
            (splitCargo w db (params.shipHash w) user row.shipfleets self).2
            (temporary w db params self row user) rfl rfl
          have hneeds : (tryCatch
              (some <$> (temporary w db params self row user).flight w
                (w.distanceTo self.originPlanet params.planet)) fun _ =>
                  pure none : Act (Option (Numeric × Numeric))).run
                (db.setFleets (splitTable w db (params.shipHash w) user row.shipfleets self)) =
              .ok (checkNeeds w db params self user)
                (db.setFleets (splitTable w db (params.shipHash w) user row.shipfleets self)) := by
            have hflight := flight_leaving w db (params.shipHash w) user row.shipfleets self
              (splitCargo w db (params.shipHash w) user row.shipfleets self).2
              (w.distanceTo self.originPlanet params.planet)
            unfold checkNeeds
            cases hneeds : flightOf w (leaving w db (params.shipHash w) user self).velocityFactor
                (added (params.shipHash w) []) (w.distanceTo self.originPlanet params.planet) with
            | none => exact run_rescue_of_error (by rw [hneeds] at hflight; exact hflight)
            | some needed => exact run_rescue_of_ok (by rw [hneeds] at hflight; exact hflight)
          have hrun : (checkSplit w params self (db.planets self.originPlanet)
              (some ((staying w db (params.shipHash w) row.shipfleets self).withCargo
                (splitCargo w db (params.shipHash w) user row.shipfleets self).1,
                temporary w db params self row user))).run
              (db.setFleets (splitTable w db (params.shipHash w) user row.shipfleets self)) =
              .ok (allErrors w db params self row user) _ :=
            (run_bind_of_ok hneeds _).trans ((run_bind_of_ok hmerge _).trans rfl)
          exact cast (congrArg _ hrun.symm) (.undone row user hget hships henough howner hfails)

/-! ## A check leaves the state as it is -/

variable (db params) in
/-- If the check gets as far as the split, the shares of the cargo add up again. -/
def ChecksCleanly : Prop :=
  ∀ row user, db.fleets.get params.fleet = some row → (params.shipHash w).entries ≠ [] →
    enoughShips? row.shipfleets (params.shipHash w) = true →
    (db.planets row.attributes.originPlanet).user = some user →
    SharesSum w db (ofRow params.fleet row) row (params.shipHash w) user

theorem same_iff_checksCleanly {fehler : List String} {next : Db}
    (hcheck : (checkHelper w params).run db = .ok fehler next) :
    db.Same next ↔ ChecksCleanly w db params := by
  have houtcome := check_outcome w db params
  rw [hcheck] at houtcome
  cases houtcome with
  | early row fehler hget hfehler hearly =>
      refine ⟨fun _ row' user hget' hships henough _ => ?_, fun _ => .refl db⟩
      obtain rfl : row = row' := Option.some.inj (hget.symm.trans hget')
      exact absurd hearly (not_or.mpr ⟨hships, not_not.mpr henough⟩)
  | undone row user hget hships henough howner hfails =>
      have hsame := (Db.Same.setFleets_put_iff hget
        (t := (db.fleets.put params.fleet (restored w db row.shipfleets (ofRow params.fleet row)
          ((splitCargo w db (params.shipHash w) user row.shipfleets (ofRow params.fleet row)).1 +
            (splitCargo w db (params.shipHash w) user row.shipfleets
              (ofRow params.fleet row)).2))).skip)
        fun other => Table.get_skip _ other).trans (restored_stored _)
      rw [hsame]
      constructor
      · intro hsum row' user' hget' _ _ howner'
        obtain rfl : row = row' := Option.some.inj (hget.symm.trans hget')
        obtain rfl : user = user' := Option.some.inj (howner.symm.trans howner')
        exact hsum
      · intro hcleanly
        exact hcleanly row user hget hships henough howner

/-- A check that returns, as a step. -/
def checking (db : Db) (params : Params) : Option Db :=
  match (checkHelper w params).run db with
  | .ok _ next => some next
  | .error _ _ => none

/-- A check changes nothing exactly when it is clean, and so do any number of clean checks. -/
theorem check_changes_nothing :
    (∀ (db next : Db) (params : Params) (fehler : List String),
      (checkHelper w params).run db = .ok fehler next →
      (db.Same next ↔ ChecksCleanly w db params)) ∧
    ∀ (start final : Db) (requests : List Params),
      Along (checking w) (ChecksCleanly w) start requests →
      run (checking w) start requests = some final → start.Same final := by
  refine ⟨fun db next params fehler hcheck => same_iff_checksCleanly w hcheck,
    fun start final requests hclean hrun => ?_⟩
  refine run_keeps _ ?_ (.refl start) hclean hrun
  intro db params next hsame hcleanly hstep
  unfold checking at hstep
  cases hcheck : (checkHelper w params).run db with
  | ok fehler middle =>
      rw [hcheck] at hstep
      obtain rfl := Option.some.inj hstep
      exact hsame.trans ((same_iff_checksCleanly w hcheck).mpr hcleanly)
  | error err middle =>
      rw [hcheck] at hstep
      cases hstep

/-- A request to send one of two small cargo ships from planet 1 to planet 2. -/
def sampleParams : Params where
  fleet := 1
  mission := 4
  planet := some 2
  ship := fun ship => if ship = 1 then some 1 else none

theorem check_changes_nothing_sample :
    (ladenDb 9000).Same (after ((checkHelper Seeds.world sampleParams).run (ladenDb 9000))) := by
  have hclean : ChecksCleanly Seeds.world (ladenDb 9000) sampleParams := by
    intro row user hget _ _ howner
    obtain rfl : ladenRow 9000 = row := Option.some.inj hget
    obtain rfl : 1 = user := Option.some.inj howner
    decide +kernel
  have hreturned : returned ((checkHelper Seeds.world sampleParams).run (ladenDb 9000)) = true := by
    decide +kernel
  obtain ⟨fehler, hcheck⟩ := exists_of_returned hreturned
  exact ((check_changes_nothing Seeds.world).1 _ _ _ _ hcheck).mpr hclean

/-- Two halves of 9001 ore are 4500 each. -/
theorem check_changes_cargo :
    ¬ ∀ (w : World) (db next : Db) (params : Params) (fehler : List String),
      (checkHelper w params).run db = .ok fehler next → db.Same next := by
  intro hall
  have hreturned : returned ((checkHelper Seeds.world sampleParams).run (ladenDb 9001)) = true := by
    decide +kernel
  obtain ⟨fehler, hcheck⟩ := exists_of_returned hreturned
  have hcargo := cargoOf_of_same (hall _ _ _ _ _ hcheck) 1
  exact absurd hcargo (by decide +kernel)

end MissionsController

end Mmog

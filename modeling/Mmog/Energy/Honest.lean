import Mmog.Energy.Tick
import Mmog.Solvency.Reachable

/-!
# Honest taking

What `take` returns is between nothing and what it is asked for, and as much is
gone from the stock, if the stock is not negative and no fraction gets lost.
From the creation of the universe on no stock is negative while the ticks can
pay for the energy.
-/

namespace Mmog

open Ruby Action Game

/-! ## Taking -/

/-- What there is to take on a planet; its money is that of the owner. -/
def Db.stockOf (db : Db) (p : PlanetId) : Resource → ℤ
  | .money => ((db.planets p).user.map fun u => (db.users u).money).getD 0
  | type => (db.planets p).stock type

/-- Taking returns something between nothing and the number, and as much is gone. -/
def Planet.Honest (db : Db) (p : PlanetId) (type : Resource) (number : Numeric) : Prop :=
  ∃ back next, (Planet.take p type number).run db = .ok back next ∧
    0 ≤ back.value ∧ back.value ≤ number.value ∧
    (next.stockOf p type : ℚ) = db.stockOf p type - back.value

/-- The number is whole, and no digit is lost when it is subtracted from the stock. -/
def Planet.Exact (stock : ℤ) (number : Numeric) : Prop :=
  (∃ k : ℤ, number.value = k) ∧ ((stock : Numeric) - number).value = stock - number.value

/-- Integers are exact, and so are whole numbers as long as the stock has at most 53 bits. -/
theorem Planet.exact_of_lt {stock k : ℤ} {number : Numeric} (hnumber : 0 ≤ number.value)
    (hk : number.value = k) (hle : number.value ≤ stock) (hbound : stock < 2 ^ 53) :
    Exact stock number := by
  refine ⟨⟨k, hk⟩, Numeric.value_sub_of_lt hk ?_ ?_ hbound⟩
  · rw [hk] at hnumber
    exact_mod_cast hnumber
  · rw [hk] at hle
    exact_mod_cast hle

namespace Planet

/-- What `taken` leaves and returns adds up if and only if the stock is too small or the number exact. -/
theorem taken_honest_iff {old : ℤ} {number : Numeric} (hold : 0 ≤ old) (hnumber : ¬ number ≤ 0) :
    (0 ≤ (taken old number).2.value ∧ (taken old number).2.value ≤ number.value ∧
      ((taken old number).1 : ℚ) = old - (taken old number).2.value) ↔
        (old : Numeric) < number ∨ Exact old number := by
  have hpos : 0 ≤ number.value := (Numeric.not_le_iff.mp hnumber).le
  unfold taken
  split
  · rename_i hless
    refine iff_of_true ⟨Int.cast_nonneg hold, hless.le, ?_⟩ (Or.inl hless)
    rw [Numeric.value_int, sub_self, Int.cast_zero]
  · rename_i hless
    rw [or_iff_right hless]
    constructor
    · rintro ⟨-, -, hleft⟩
      dsimp only at hleft
      have hwhole : number.value = (old - ((old : Numeric) - number).toI : ℤ) := by
        push_cast
        linarith
      obtain ⟨m, hm⟩ := Numeric.exists_value_sub hwhole old
      refine ⟨⟨_, hwhole⟩, ?_⟩
      rw [hm, ← hleft, Numeric.toI_of_value hm]
    · rintro ⟨⟨k, hk⟩, hexact⟩
      have hvalue : ((old : Numeric) - number).value = (old - k : ℤ) := by
        rw [hexact, hk, Int.cast_sub]
      refine ⟨hpos, le_refl _, ?_⟩
      dsimp only
      rw [Numeric.toI_of_value hvalue, hk, Int.cast_sub]

theorem stock_setStock {type : Resource} (hmoney : type ≠ .money) (hother : type ≠ .other) (n : ℤ)
    (planet : Planet) : (planet.setStock type n).stock type = n := by
  cases type with
  | money => exact absurd rfl hmoney
  | other => exact absurd rfl hother
  | _ => rfl

theorem stockOf_of_ne {db : Db} {p : PlanetId} {type : Resource} (hmoney : type ≠ .money) :
    db.stockOf p type = (db.planets p).stock type := by
  cases type with
  | money => exact absurd rfl hmoney
  | _ => rfl

theorem honest_of_run {db next : Db} {p : PlanetId} {type : Resource} {number back : Numeric}
    (hrun : (take p type number).run db = .ok back next) :
    Honest db p type number ↔ 0 ≤ back.value ∧ back.value ≤ number.value ∧
      (next.stockOf p type : ℚ) = db.stockOf p type - back.value := by
  constructor
  · rintro ⟨back', next', hrun', hhonest⟩
    rw [hrun] at hrun'
    cases hrun'
    exact hhonest
  · intro hhonest
    exact ⟨back, next, hrun, hhonest⟩

variable {db : Db} {p : PlanetId} {number : Numeric}

theorem run_take_stored (hnumber : ¬ number ≤ 0) {type : Resource} (hmoney : type ≠ .money)
    (hother : type ≠ .other) :
    (take p type number).run db = .ok (taken ((db.planets p).stock type) number).2
      (db.setPlanet p ((db.planets p).setStock type (taken ((db.planets p).stock type) number).1)) := by
  rw [take, if_neg hnumber]
  cases type with
  | money => exact absurd rfl hmoney
  | other => exact absurd rfl hother
  | _ => rfl

theorem run_take_money (hnumber : ¬ number ≤ 0) {u : UserId} (huser : (db.planets p).user = some u) :
    (take p .money number).run db = .ok (taken (db.users u).money number).2
      (db.setMoney u (taken (db.users u).money number).1) := by
  rw [take, if_neg hnumber, run_bind_get]
  dsimp only
  rw [huser]
  rfl

/-- Where nothing is, nothing is taken. -/
theorem run_take_nothing (hnumber : ¬ number ≤ 0) {type : Resource}
    (hnothing : type = .other ∨ (type = .money ∧ (db.planets p).user = none)) :
    (take p type number).run db = .ok 0 db := by
  rw [take, if_neg hnumber, run_bind_get]
  rcases hnothing with rfl | ⟨rfl, huser⟩
  · rfl
  · dsimp only
    rw [huser]
    rfl

theorem stockOf_setStock {type : Resource} (hmoney : type ≠ .money) (hother : type ≠ .other) (n : ℤ) :
    (db.setPlanet p ((db.planets p).setStock type n)).stockOf p type = n := by
  rw [stockOf_of_ne hmoney, Db.setPlanet]
  dsimp only
  rw [if_pos rfl, stock_setStock hmoney hother]

theorem stockOf_money {u : UserId} (huser : (db.planets p).user = some u) :
    db.stockOf p .money = (db.users u).money := by
  rw [Db.stockOf, huser]
  rfl

theorem stockOf_setMoney {u : UserId} (huser : (db.planets p).user = some u) (n : ℤ) :
    (db.setMoney u n).stockOf p .money = n := by
  rw [stockOf_money (show ((db.setMoney u n).planets p).user = some u from huser), Db.setMoney]
  dsimp only
  rw [if_pos rfl]

/-- Taking from a stock that is not negative is honest if and only if there is too little or the
number is exact. -/
theorem honest_iff {type : Resource} (hstock : 0 ≤ db.stockOf p type) (hnumber : ¬ number ≤ 0) :
    Honest db p type number ↔
      (db.stockOf p type : Numeric) < number ∨ Exact (db.stockOf p type) number := by
  have hnothing : type = .other ∨ (type = .money ∧ (db.planets p).user = none) →
      db.stockOf p type = 0 → (Honest db p type number ↔
        (db.stockOf p type : Numeric) < number ∨ Exact (db.stockOf p type) number) := by
    intro htype hzero
    have hpos := Numeric.not_le_iff.mp hnumber
    rw [honest_of_run (run_take_nothing hnumber htype), hzero]
    refine iff_of_true ⟨le_refl _, hpos.le, ?_⟩ (Or.inl hpos)
    rw [Numeric.value_zero, sub_zero]
  by_cases hother : type = .other
  · subst hother
    exact hnothing (Or.inl rfl) rfl
  · by_cases hmoney : type = .money
    · subst hmoney
      cases huser : (db.planets p).user with
      | none => exact hnothing (Or.inr ⟨rfl, huser⟩) (by rw [Db.stockOf, huser]; rfl)
      | some u =>
          rw [stockOf_money huser] at hstock ⊢
          rw [honest_of_run (run_take_money hnumber huser), stockOf_setMoney huser, stockOf_money huser]
          exact taken_honest_iff hstock hnumber
    · rw [honest_of_run (run_take_stored hnumber hmoney hother), stockOf_setStock hmoney hother]
      rw [stockOf_of_ne hmoney] at hstock ⊢
      exact taken_honest_iff hstock hnumber

end Planet

/-! ## From the creation on -/

theorem Planet.init_solvent (special : Bool) (size : ℕ) (kind : Fin 7) (crystalSize : ℕ) :
    (Planet.init special size kind crystalSize).Solvent := by
  unfold Planet.init
  dsimp only
  split_ifs <;> constructor <;> simp [Planet.filledIn] <;> positivity

theorem Db.Created.solvent {db : Db} (hdb : db.Created) : db.Solvent := by
  refine ⟨fun p => ?_, hdb.money, fun id row hrow => ?_⟩
  · obtain ⟨special, size, kind, crystalSize, hplanet⟩ := hdb.planets p
    exact hplanet ▸ Planet.init_solvent special size kind crystalSize
  · rw [hdb.fleets id] at hrow
    cases hrow

theorem Db.Created.charged {db : Db} (hdb : db.Created) : db.Charged := by
  intro p
  obtain ⟨special, size, kind, crystalSize, hplanet⟩ := hdb.planets p
  exact hplanet ▸ Planet.init_charged special size kind crystalSize

theorem Db.stockOf_nonneg {db : Db} (hsolvent : db.Solvent) (hcharged : db.Charged) (p : PlanetId)
    (type : Resource) : 0 ≤ db.stockOf p type := by
  by_cases hmoney : type = .money
  · subst hmoney
    cases huser : (db.planets p).user with
    | none =>
        rw [stockOf, huser]
        exact le_refl _
    | some u =>
        rw [Planet.stockOf_money huser]
        exact hsolvent.money u
  · rw [Planet.stockOf_of_ne hmoney]
    by_cases henergy : type = .energy
    · subst henergy
      exact (hcharged p).energy
    · exact (hsolvent.planets p).stock henergy

/-- From the creation on, while every tick can pay for the energy and every depot has room for it,
the energy stays in its bounds, and taking is honest unless a fraction gets lost. -/
theorem energy_bounded_take_honest (rules : Rules) {start game : Game} {events : List GameEvent}
    (hstart : start.db.Created)
    (hgood : Along (GameEvent.step rules) (fun game event => event.charges rules game = true) start events)
    (hrun : run (GameEvent.step rules) start events = some game) :
    (∀ p, 0 ≤ (game.db.planets p).energy ∧ (game.db.planets p).energy ≤ (game.db.planets p).maxenergy) ∧
      ∀ p type (number : Numeric), 0 < number →
        (Planet.Honest game.db p type number ↔
          (game.db.stockOf p type : Numeric) < number ∨ Planet.Exact (game.db.stockOf p type) number) := by
  have hcharged : game.db.Charged :=
    run_keeps (fun game : Game => game.db.Charged)
      (fun _ _ _ hgame hcharges hstep => GameEvent.step_charged hgame hcharges hstep) hstart.charged hgood hrun
  have hsolvent : game.db.Solvent :=
    run_invariant (fun _ _ _ hstate hstep => GameEvent.step_solvent hstate hstep)
      (show start.Solvent from hstart.solvent) hrun
  refine ⟨fun p => ⟨(hcharged p).energy, (hcharged p).full⟩, fun p type number hnumber => ?_⟩
  refine Planet.honest_iff (Db.stockOf_nonneg hsolvent hcharged p type) ?_
  exact Numeric.not_le_iff.mpr hnumber

/-- The seeded tables over a universe of new planets; planet 5 is a crystal planet. -/
def created : Game :=
  Seeds.game { Seeds.start with planets := fun p => Planet.init (p = 5) 20000 3 10000 }

theorem created_created : created.db.Created := by
  refine ⟨fun p => ⟨p = 5, 20000, 3, 10000, rfl⟩, fun u => ?_, fun id => rfl⟩
  simp [created, Seeds.game, Seeds.start]

/-- User 1 claims planet 2, and the first buildings are finished. -/
def settling : List GameEvent :=
  [.claim 2 1, .fleets (.schedule 0), .fleets (.schedule 0), .fleets (.schedule 0),
    .fleets (.schedule 0), .workPlanet 0, .workPlanet 0, .workPlanet 0, .workPlanet 0]

/-- A tick of planet 2 comes after 30 seconds. -/
def nextTick : List GameEvent := [.fleets (.wait 30), .fleets (.schedule 0), .workPlanet 0]

def poweredGame : Game :=
  (run (GameEvent.step Seeds.rules) created (settling ++ nextTick)).get (by decide)

theorem energy_bounded_take_honest_sample :
    (poweredGame.db.planets 2).energy ≤ (poweredGame.db.planets 2).maxenergy ∧
      Planet.Honest poweredGame.db 2 .energy (.float 25) := by
  have hrun : run (GameEvent.step Seeds.rules) created (settling ++ nextTick) = some poweredGame :=
    (Option.some_get _).symm
  have hbounds := energy_bounded_take_honest Seeds.rules created_created (by decide +kernel) hrun
  refine ⟨(hbounds.1 2).2, (hbounds.2 2 .energy (.float 25) (by decide)).mpr (Or.inr ?_)⟩
  exact ⟨⟨25, rfl⟩, by decide +kernel⟩

/-- The same without the power plant, whose job is aborted in time. -/
def darkening : List GameEvent :=
  [.claim 2 1, .abortUpgrade 2 26, .fleets (.schedule 0), .fleets (.schedule 0), .fleets (.schedule 0),
    .workPlanet 0, .workPlanet 0, .workPlanet 0]

def darkGame : Game :=
  (run (GameEvent.step Seeds.rules) created (darkening ++ nextTick ++ nextTick)).get (by decide)

/-- The second tick takes more energy than there is, and taking energy then returns a debt.  Of the
ore of a new planet a fraction gets lost. -/
theorem energy_in_debt :
    created.db.Created ∧
      run (GameEvent.step Seeds.rules) created (darkening ++ nextTick ++ nextTick) = some darkGame ∧
      (darkGame.db.planets 2).energy < 0 ∧ ¬ Planet.Honest darkGame.db 2 .energy 10 ∧
      ¬ Planet.Honest created.db 2 .ore (.float (1 / 2)) := by
  refine ⟨created_created, (Option.some_get _).symm, by decide, ?_, ?_⟩
  · intro hhonest
    have hrun : (Planet.take 2 .energy 10).run darkGame.db = _ :=
      Planet.run_take_stored (by decide) nofun nofun
    have hback := ((Planet.honest_of_run hrun).mp hhonest).1
    revert hback
    decide
  · intro hhonest
    have hexact := (Planet.honest_iff (by decide +kernel) (by decide +kernel)).mp hhonest
    revert hexact
    rintro (hless | ⟨⟨k, hk⟩, -⟩)
    · revert hless
      decide +kernel
    · have hdouble : 2 * k = 1 := by
        rw [Numeric.value_float] at hk
        have htwice : (2 : ℚ) * k = 1 := by rw [← hk]; norm_num
        exact_mod_cast htwice
      omega

end Mmog

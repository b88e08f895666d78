import Mmog.Model.Technologies
import Mmog.Research.Outcome

/-!
# Effects of research

The column of the user settings that a technology names holds the factor to the
power of the user's rank if it is a number, and stays false if it is an unlock.
-/

namespace Mmog

open Ruby Action Game

def UserSetting.get (setting : UserSetting) : Technology → Factor
  | .increasedMovement => setting.increasedMovement
  | .increasedPower => setting.increasedPower
  | .increasedDefense => setting.increasedDefense
  | .increasedCapacity => setting.increasedCapacity
  | .increasedSpypower => setting.increasedSpypower

theorem UserSetting.get_update (setting : UserSetting) (factor : Factor) (technology other : Technology) :
    (setting.update factor technology).get other = if other = technology then factor else setting.get other := by
  cases technology <;> cases other <;> rfl

/-- A value of the user settings. -/
inductive Column where
  | number (value : ℚ)
  | unlock (value : Bool)

/-- The column of this name in the settings of a user. -/
def Game.column (game : Game) (u : UserId) : SettingName → Column
  | .fleet technology => .number ((game.db.users u).userSetting.get technology).val
  | .rate rate => .number ((game.profiles u).rate rate)
  | .flag flag => .unlock ((game.profiles u).flag flag)

namespace TechnologyRow

variable (row : TechnologyRow)

/-- A number is the factor to the power of the rank and no less than at any rank before, and an
unlock is true from the first rank on. -/
def Applied (rank : ℕ) : Column → Prop
  | .number value => value = Binary64.round (row.factor ^ rank) ∧
      ∀ less ≤ rank, Binary64.round (row.factor ^ less) ≤ value
  | .unlock value => value = true ↔ 1 ≤ rank

/-- What is written at a rank. -/
def written (rank : ℕ) : Column :=
  match row.name with
  | .flag _ => .unlock false
  | _ => .number (Binary64.round (row.factor ^ rank))

theorem written_of_flag {flag : Flag} (hname : row.name = .flag flag) (rank : ℕ) :
    row.written rank = .unlock false := by
  rw [written, hname]

theorem written_of_number (hname : ∀ flag, row.name ≠ .flag flag) (rank : ℕ) :
    row.written rank = .number (Binary64.round (row.factor ^ rank)) := by
  unfold written
  split
  · rename_i flag hflag
    exact absurd hflag (hname flag)
  · rfl

variable {row}

/-- Powers of a factor from 1 on do not fall. -/
theorem round_power_mono (hfactor : 1 ≤ row.factor) {less rank : ℕ} (hless : less ≤ rank) :
    Binary64.round (row.factor ^ less) ≤ Binary64.round (row.factor ^ rank) :=
  Binary64.round_mono (pow_le_pow_right₀ hfactor hless)

theorem round_one : Binary64.round (1 : ℚ) = 1 := by
  have hone := Binary64.round_intCast (show |(1 : ℤ)| < 2 ^ 53 by norm_num)
  rwa [Int.cast_one] at hone

/-- What is written is the effect before the first rank, and after it unless the factor is 0. -/
theorem applied_written_iff (hrow : row ∈ TechnologiesHelper.initTechnology) (rank : ℕ) :
    row.Applied rank (row.written rank) ↔ rank = 0 ∨ row.factor ≠ 0 := by
  obtain ⟨hfactor, hflag⟩ := TechnologiesHelper.factor_initTechnology row hrow
  by_cases hname : ∃ flag, row.name = .flag flag
  · obtain ⟨flag, hname⟩ := hname
    rw [written_of_flag row hname]
    have hzero := hflag flag hname
    constructor
    · intro happlied
      have hrank : ¬1 ≤ rank := fun hle => Bool.false_ne_true (happlied.mpr hle)
      exact .inl (by omega)
    · intro hcondition
      have hrank := hcondition.resolve_right (not_not.mpr hzero)
      constructor
      · exact nofun
      · intro hle
        omega
  · rw [written_of_number row (not_exists.mp hname)]
    constructor
    · rintro ⟨-, hgrows⟩
      by_contra hnot
      obtain ⟨hrank, hzero⟩ := not_or.mp hnot
      -- then the value fell from 1 to 0 with the first rank
      have hfirst := hgrows 0 (Nat.zero_le rank)
      rw [not_not.mp hzero, pow_zero, zero_pow hrank, round_one, Binary64.round_zero] at hfirst
      exact absurd hfirst (by norm_num)
    · intro hcondition
      refine ⟨rfl, fun less hless => ?_⟩
      rcases hcondition with rfl | hne
      · rw [Nat.le_zero.mp hless]
      · exact round_power_mono (hfactor.resolve_left hne) hless

end TechnologyRow

/-! ## Completions -/

/-- Nobody has researched anything: no ranks, and the defaults of the user settings. -/
structure Game.Unresearched (game : Game) : Prop where
  ranks : ∀ u id, game.ranks u id = none
  setting : ∀ u, (game.db.users u).userSetting = {}
  rate : ∀ u rate, (game.profiles u).rate rate = 1
  flag : ∀ u flag, (game.profiles u).flag flag = false

/-- What jobs that are performed one after another leave behind; one that raises is lost. -/
def Game.complete (rules : Rules) (game : Game) (jobs : List ResearchTechnology) : Game :=
  jobs.foldl (fun game job => after ((job.perform rules).run game)) game

/-- The user's rank, 0 without a row for the technology. -/
def Game.rank (game : Game) (u : UserId) (id : TechnologyId) : ℕ := (game.ranks u id).getD 0

/-- Every column of every user is what was written at the user's rank. -/
def Game.Agrees (game : Game) : Prop :=
  ∀ u id row, TechnologiesHelper.technology id = some row → game.column u row.name = row.written (game.rank u id)

theorem Game.Unresearched.agrees {game : Game} (hgame : game.Unresearched) : game.Agrees := by
  intro u id row hrow
  have hrank : game.rank u id = 0 := by
    rw [Game.rank, hgame.ranks]
    rfl
  rw [hrank]
  cases hname : row.name with
  | fleet technology =>
      rw [TechnologyRow.written_of_number row (by rw [hname]; exact nofun), pow_zero, TechnologyRow.round_one,
        Game.column, hgame.setting]
      cases technology <;> rfl
  | rate rate =>
      rw [TechnologyRow.written_of_number row (by rw [hname]; exact nofun), pow_zero, TechnologyRow.round_one,
        Game.column, hgame.rate]
  | flag flag => rw [TechnologyRow.written_of_flag row hname, Game.column, hgame.flag]

namespace Technology

section Column

variable (game : Game) (user u : UserId) (name : SettingName)

theorem column_setProfile_of_ne (profile : Profile) (hu : u ≠ user) :
    (game.setProfile user profile).column u name = game.column u name := by
  have hprofile : (game.setProfile user profile).profiles u = game.profiles u := if_neg hu
  cases name with
  | fleet technology => rfl
  | rate rate => rw [Game.column, hprofile, Game.column]
  | flag flag => rw [Game.column, hprofile, Game.column]

theorem column_setUserSetting_of_ne (setting : UserSetting) (hu : u ≠ user) :
    (game.setDb (game.db.setUserSetting user setting)).column u name = game.column u name := by
  have huser : (game.db.setUserSetting user setting).users u = game.db.users u := if_neg hu
  cases name with
  | fleet technology => rw [Game.column, db_setDb, huser, Game.column]
  | rate rate => rfl
  | flag flag => rfl

/-- A column of a profile depends on its rates and flags only. -/
theorem column_setProfile_self (profile : Profile) (hrate : profile.rate = (game.profiles user).rate)
    (hflag : profile.flag = (game.profiles user).flag) :
    (game.setProfile user profile).column user name = game.column user name := by
  have hprofile : (game.setProfile user profile).profiles user = profile := if_pos rfl
  cases name with
  | fleet technology => rfl
  | rate rate => rw [Game.column, hprofile, hrate, Game.column]
  | flag flag => rw [Game.column, hprofile, hflag, Game.column]

theorem column_update (factor : Factor) (technology : Technology) :
    (game.setDb (game.db.setUserSetting u ((game.db.users u).userSetting.update factor technology))).column u name =
      if name = .fleet technology then .number factor.val else game.column u name := by
  have huser : ∀ setting, ((game.db.setUserSetting u setting).users u).userSetting = setting :=
    fun setting => congrArg User.userSetting (if_pos rfl)
  cases name with
  | fleet other =>
      rw [Game.column, db_setDb, huser, UserSetting.get_update]
      by_cases heq : other = technology
      · rw [if_pos heq, if_pos (by rw [heq])]
      · rw [if_neg heq, if_neg (by simpa using heq)]
        rfl
  | rate rate => rw [if_neg nofun]; rfl
  | flag flag => rw [if_neg nofun]; rfl

theorem column_rate (rate : Rate) (value : ℚ) :
    (game.setProfile u { game.profiles u with
        rate := Function.update (game.profiles u).rate rate value }).column u name =
      if name = .rate rate then .number value else game.column u name := by
  have hprofile : ∀ profile, (game.setProfile u profile).profiles u = profile := fun profile => if_pos rfl
  cases name with
  | fleet technology => rw [if_neg nofun]; rfl
  | rate other =>
      rw [Game.column, hprofile]
      dsimp only
      by_cases heq : other = rate
      · subst heq
        rw [Function.update_self, if_pos rfl]
      · rw [Function.update_of_ne heq, if_neg (by simpa using heq)]
        rfl
  | flag flag =>
      rw [Game.column, hprofile, if_neg nofun]
      rfl

theorem column_flag (flag : Flag) (value : Bool) :
    (game.setProfile u { game.profiles u with
        flag := Function.update (game.profiles u).flag flag value }).column u name =
      if name = .flag flag then .unlock value else game.column u name := by
  have hprofile : ∀ profile, (game.setProfile u profile).profiles u = profile := fun profile => if_pos rfl
  cases name with
  | fleet technology => rw [if_neg nofun]; rfl
  | rate rate =>
      rw [Game.column, hprofile, if_neg nofun]
      rfl
  | flag other =>
      rw [Game.column, hprofile]
      dsimp only
      by_cases heq : other = flag
      · subst heq
        rw [Function.update_self, if_pos rfl]
      · rw [Function.update_of_ne heq, if_neg (by simpa using heq)]
        rfl

end Column

/-- A completion writes the column that the technology names, and no other. -/
theorem column_updateSetting (game : Game) (user u : UserId) (row : TechnologyRow) (newRank : ℕ)
    (name : SettingName) : (updateSetting game user row newRank).column u name =
      if u = user ∧ name = row.name then row.written newRank else game.column u name := by
  by_cases hu : u = user
  swap
  · rw [if_neg fun hboth => hu hboth.1]
    unfold updateSetting
    split
    · exact column_setUserSetting_of_ne game user u name _ hu
    · exact column_setProfile_of_ne game user u name _ hu
    · exact column_setProfile_of_ne game user u name _ hu
  subst hu
  have hcondition : ∀ {written}, row.name = written → (name = written ↔ u = u ∧ name = row.name) := by
    rintro written rfl
    exact (and_iff_right rfl).symm
  unfold updateSetting
  split
  · rename_i technology hname
    refine (column_update game u name _ technology).trans (if_congr (hcondition hname) ?_ rfl)
    exact (row.written_of_number (by rw [hname]; exact nofun) newRank).symm
  · rename_i rate hname
    refine (column_rate game u name rate _).trans (if_congr (hcondition hname) ?_ rfl)
    exact (row.written_of_number (by rw [hname]; exact nofun) newRank).symm
  · rename_i flag hname
    refine (column_flag game u name flag _).trans (if_congr (hcondition hname) ?_ rfl)
    exact (row.written_of_flag hname newRank).symm

theorem finished_agrees {game : Game} (hgame : game.Agrees) {id : TechnologyId} {row : TechnologyRow}
    (hrow : TechnologiesHelper.technology id = some row) (user : UserId) :
    (finished game id user row).Agrees := by
  intro u other found hfound
  let ranked : Game := { game with
    ranks := fun other => if other = user then
      Function.update (game.ranks user) id (some (newRank game id user)) else game.ranks other }
  have hcolumn : (finished game id user row).column u found.name =
      (updateSetting ranked user row (newRank game id user)).column u found.name := by
    by_cases hu : u = user
    · subst hu
      exact column_setProfile_self _ u found.name _ rfl rfl
    · exact column_setProfile_of_ne _ user u found.name _ hu
  have hranks : (finished game id user row).ranks u =
      if u = user then Function.update (game.ranks user) id (some (newRank game id user)) else game.ranks u :=
    congrFun (ranks_updateSetting user row _) u
  rw [hcolumn, column_updateSetting, Game.rank, hranks]
  by_cases hu : u = user
  · subst hu
    rw [if_pos rfl]
    by_cases hid : other = id
    · subst hid
      obtain rfl : row = found := Option.some.inj (hrow.symm.trans hfound)
      rw [if_pos ⟨rfl, rfl⟩, Function.update_self, Option.getD_some]
    · have hname : found.name ≠ row.name := fun heq =>
        hid (TechnologiesHelper.technology_inj hfound hrow heq)
      rw [if_neg fun hboth => hname hboth.2, Function.update_of_ne hid]
      exact hgame u other found hfound
  · rw [if_neg fun hboth => hu hboth.1, if_neg hu]
    exact hgame u other found hfound

end Technology

theorem Game.complete_agrees (rules : Rules) {game : Game} (hgame : game.Agrees)
    (jobs : List ResearchTechnology) : (game.complete rules.seeded jobs).Agrees := by
  induction jobs generalizing game with
  | nil => exact hgame
  | cons job jobs ih =>
      refine ih ?_
      have houtcome := Technology.finish_outcome rules.seeded game job.technology job.user
      change Game.Agrees (after ((Technology.updateUservalues rules.seeded job.technology job.user).run game))
      rw [houtcome]
      cases hrow : rules.seeded.technology job.technology with
      | none => exact hgame
      | some row => exact Technology.finished_agrees hgame hrow job.user

/-- After any completions by any users the effect of a technology is applied exactly if the user
has no rank in it or its factor is not 0. -/
theorem effects_applied_iff (rules : Rules) (game : Game) (hgame : game.Unresearched)
    (jobs : List ResearchTechnology) (u : UserId) (id : TechnologyId) (row : TechnologyRow)
    (hrow : TechnologiesHelper.technology id = some row) :
    row.Applied ((game.complete rules.seeded jobs).rank u id)
        ((game.complete rules.seeded jobs).column u row.name) ↔
      (game.complete rules.seeded jobs).rank u id = 0 ∨ row.factor ≠ 0 := by
  rw [Game.complete_agrees rules hgame.agrees jobs u id row hrow]
  exact TechnologyRow.applied_written_iff (TechnologiesHelper.mem_of_technology hrow) _

theorem unresearched_start : (Seeds.game Seeds.start).Unresearched :=
  ⟨fun _ _ => rfl, fun _ => rfl, fun _ _ => rfl, fun _ _ => rfl⟩

/-- Two ranks of a higher income, with a completion by another user in between. -/
theorem effects_applied_income :
    TechnologyRow.Applied
      (TechnologiesHelper.growing (.rate .increasedIncome) (105 / 100) (by norm_num) 100 (-1) 1500)
      (((Seeds.game Seeds.start).complete Seeds.rules.seeded [⟨1, 1⟩, ⟨2, 12⟩, ⟨1, 1⟩]).rank 1 1)
      (((Seeds.game Seeds.start).complete Seeds.rules.seeded [⟨1, 1⟩, ⟨2, 12⟩, ⟨1, 1⟩]).column 1
        (.rate .increasedIncome)) :=
  (effects_applied_iff Seeds.rules _ unresearched_start _ 1 1 _ rfl).mpr (.inr (by decide +kernel))

/-- The large cargo ship stays locked after it was researched. -/
theorem unlock_stays_false :
    ¬ ∀ (rules : Rules) (game : Game), game.Unresearched →
      ∀ (jobs : List ResearchTechnology) (u : UserId) (id : TechnologyId) (row : TechnologyRow),
        TechnologiesHelper.technology id = some row →
        row.Applied ((game.complete rules.seeded jobs).rank u id)
          ((game.complete rules.seeded jobs).column u row.name) := by
  intro hall
  have happlied := hall Seeds.rules _ unresearched_start [⟨1, 10⟩] 1 10 _ rfl
  rw [Game.complete_agrees Seeds.rules unresearched_start.agrees [⟨1, 10⟩] 1 10 _ rfl,
    TechnologyRow.applied_written_iff (TechnologiesHelper.mem_of_technology (show TechnologiesHelper.technology 10 = _ from rfl))] at happlied
  revert happlied
  decide

end Mmog

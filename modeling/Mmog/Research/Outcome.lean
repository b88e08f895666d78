import Mmog.Model.Seeds

/-!
# What research does

A user's pending research, and what is left when research is started, aborted
and finished.
-/

namespace Mmog

open Ruby Action Game

/-- The technologies for which a user has pending jobs. -/
def Game.pendingOf (game : Game) (u : UserId) : List TechnologyId :=
  (game.researches.pending.filter fun job => job.user = u).map ResearchTechnology.technology

theorem Game.mem_pendingOf {game : Game} {u : UserId} {id : TechnologyId} :
    id ∈ game.pendingOf u ↔ ⟨u, id⟩ ∈ game.researches.pending := by
  rw [pendingOf, List.mem_map]
  constructor
  · rintro ⟨⟨user, technology⟩, hjob, rfl⟩
    obtain ⟨hmem, huser⟩ := List.mem_filter.mp hjob
    obtain rfl : user = u := of_decide_eq_true huser
    exact hmem
  · intro hmem
    exact ⟨⟨u, id⟩, List.mem_filter.mpr ⟨hmem, decide_eq_true rfl⟩, rfl⟩

theorem Game.pendingOf_cons {game next : Game} {job : ResearchTechnology} (u : UserId)
    (hpending : game.researches.pending.Perm (job :: next.researches.pending)) :
    (game.pendingOf u).Perm
      (if u = job.user then job.technology :: next.pendingOf u else next.pendingOf u) := by
  refine ((hpending.filter fun job => job.user = u).map ResearchTechnology.technology).trans ?_
  by_cases hu : u = job.user
  · rw [if_pos hu, List.filter_cons_of_pos (by simp [hu])]
    exact List.Perm.refl _
  · rw [if_neg hu, List.filter_cons_of_neg (by simpa using Ne.symm hu)]
    exact List.Perm.refl _

theorem Game.pendingOf_perm {game next : Game} (u : UserId)
    (hpending : game.researches.pending.Perm next.researches.pending) :
    (game.pendingOf u).Perm (next.pendingOf u) :=
  (hpending.filter _).map _

/-- What research does, and the clock. -/
def GameEvent.ofResearch : GameEvent → Bool
  | .fleets (.wait _) => true
  | .upgradeTechnology _ _ => true
  | .abortTechnology _ _ => true
  | .fireResearch _ => true
  | .scheduleResearch _ => true
  | .workResearch _ => true
  | _ => false

namespace Technology

variable (rules : Rules) (game : Game) (id : TechnologyId) (user : UserId)

/-- The technology, if its research is started when it is asked for. -/
def startable : Option TechnologyRow :=
  match rules.technology id with
  | none => none
  | some row =>
      match technologyRequire? rules game id row user with
      | .ok true => if (game.profiles user).researching = 0 then some row else none
      | _ => none

/-- The game after the research of a technology was started. -/
def started (row : TechnologyRow) : Game :=
  let rank := game.ranks user id
  let duration := row.getResearchDuration rank ((game.profiles user).rate .increasedResearch)
  { (game.setProfile user { game.profiles user with researching := id }).setDb
      (game.db.setMoney user ((game.db.users user).money - row.getTechnologyCost rank)) with
    researches := game.researches.enqueueAt (game.db.now + ⌊duration⌋) ⟨user, id⟩ }

/-- The game after the research of a technology was aborted. -/
def aborted (row : TechnologyRow) : Game :=
  { (game.setProfile user { game.profiles user with researching := 0 }).setDb
      (game.db.setMoney user
        ((game.db.users user).money + row.getTechnologyCost (game.ranks user id) / 2)) with
    researches := game.researches.removeDelayed ⟨user, id⟩ }

def newRank : ℕ := (game.ranks user id).elim 1 (· + 1)

/-- The game after the research of a technology was finished. -/
def finished (row : TechnologyRow) : Game :=
  let ranked := { game with
    ranks := fun other => if other = user then
      Function.update (game.ranks user) id (some (newRank game id user)) else game.ranks other }
  let updated := updateSetting ranked user row (newRank game id user)
  updated.setProfile user { updated.profiles user with researching := 0 }

theorem upgrade_outcome :
    after ((upgradeTechnology rules id user).run game) =
      match startable rules game id user with
      | some row => started game id user row
      | none => game := by
  rw [upgradeTechnology, startable, findRow]
  cases rules.technology id with
  | none => rfl
  | some row =>
      dsimp only
      rw [run_bind_pure, run_bind_get]
      cases technologyRequire? rules game id row user with
      | error err => rfl
      | ok accepted =>
          cases accepted with
          | false => rfl
          | true =>
              by_cases hidle : (game.profiles user).researching = 0
              · simp only [hidle]
                rfl
              · simp only [hidle, ne_eq, not_false_eq_true, if_true, if_false]
                rfl

theorem abort_outcome :
    after ((abortTechnology rules id user).run game) =
      match rules.technology id with
      | some row => aborted game id user row
      | none => game := by
  rw [abortTechnology, findRow]
  cases rules.technology id <;> rfl

theorem finish_outcome :
    after ((updateUservalues rules id user).run game) =
      match rules.technology id with
      | some row => finished game id user row
      | none => game := by
  rw [updateUservalues, findRow]
  cases rules.technology id <;> rfl

theorem startable_eq_some {row : TechnologyRow}
    (hstartable : startable rules game id user = some row) :
    rules.technology id = some row ∧ (game.profiles user).researching = 0 ∧
      technologyRequire? rules game id row user = .ok true := by
  unfold startable at hstartable
  split at hstartable
  · cases hstartable
  · rename_i found hfound
    split at hstartable
    · rename_i haccepted
      split at hstartable
      · rename_i hidle
        cases hstartable
        exact ⟨hfound, hidle, haccepted⟩
      · cases hstartable
    · cases hstartable

theorem accepted_of_technologyRequire? {row : TechnologyRow}
    (haccepted : technologyRequire? rules game id row user = .ok true) :
    row.maxRank? (game.ranks user id) = false ∧
      row.getTechnologyCost (game.ranks user id) ≤ (game.db.users user).money ∧
      techRequire? rules id (game.ranks user) = true := by
  unfold technologyRequire? at haccepted
  split at haccepted
  · cases haccepted
  · have hall := of_decide_eq_true (Except.ok.inj haccepted)
    exact ⟨by simpa using hall.2.1, hall.2.2.1, hall.2.2.2⟩

/-! ## What stays -/

section UpdateSetting

variable {game} (row : TechnologyRow) (rank : ℕ)

@[simp] theorem ranks_updateSetting : (updateSetting game user row rank).ranks = game.ranks := by
  unfold updateSetting
  split <;> rfl

@[simp] theorem researches_updateSetting :
    (updateSetting game user row rank).researches = game.researches := by
  unfold updateSetting
  split <;> rfl

@[simp] theorem money_updateSetting (u : UserId) :
    ((updateSetting game user row rank).db.users u).money = (game.db.users u).money := by
  unfold updateSetting
  split
  · change (if u = user then _ else game.db.users u).money = _
    split
    · rename_i heq
      rw [heq]
    · rfl
  · rfl
  · rfl

@[simp] theorem researching_updateSetting (u : UserId) :
    ((updateSetting game user row rank).profiles u).researching = (game.profiles u).researching := by
  unfold updateSetting
  split
  · rfl
  · change (if u = user then _ else game.profiles u).researching = _
    split
    · rename_i heq
      rw [heq]
    · rfl
  · change (if u = user then _ else game.profiles u).researching = _
    split
    · rename_i heq
      rw [heq]
    · rfl

end UpdateSetting

variable {game id user} (row : TechnologyRow)

theorem researching_started (u : UserId) : ((started game id user row).profiles u).researching =
    if u = user then id else (game.profiles u).researching := by
  change (if u = user then _ else game.profiles u).researching = _
  split <;> rfl

theorem researching_aborted (u : UserId) : ((aborted game id user row).profiles u).researching =
    if u = user then 0 else (game.profiles u).researching := by
  change (if u = user then _ else game.profiles u).researching = _
  split <;> rfl

theorem researching_finished (u : UserId) : ((finished game id user row).profiles u).researching =
    if u = user then 0 else (game.profiles u).researching := by
  change (if u = user then _ else (updateSetting _ user row _).profiles u).researching = _
  split
  · rfl
  · rw [researching_updateSetting]

variable (game id user) in
theorem money_started (u : UserId) : ((started game id user row).db.users u).money =
    (game.db.users u).money - if u = user then row.getTechnologyCost (game.ranks user id) else 0 := by
  change (if u = user then _ else game.db.users u).money = _
  split
  · rename_i heq
    rw [heq]
  · exact (sub_zero _).symm

variable (game id user) in
theorem money_aborted (u : UserId) : ((aborted game id user row).db.users u).money =
    (game.db.users u).money +
      if u = user then row.getTechnologyCost (game.ranks user id) / 2 else 0 := by
  change (if u = user then _ else game.db.users u).money = _
  split
  · rename_i heq
    rw [heq]
  · exact (add_zero _).symm

theorem money_finished (u : UserId) :
    ((finished game id user row).db.users u).money = (game.db.users u).money :=
  money_updateSetting user row _ u

theorem ranks_finished (u : UserId) (other : TechnologyId) :
    (finished game id user row).ranks u other =
      if u = user ∧ other = id then some (newRank game id user) else game.ranks u other := by
  change (updateSetting _ user row _).ranks u other = _
  rw [ranks_updateSetting]
  dsimp only
  by_cases hu : u = user
  · subst hu
    rw [if_pos rfl, Function.update_apply]
    by_cases hother : other = id <;> simp [hother]
  · rw [if_neg hu, if_neg fun h => hu h.1]

theorem pendingOf_finished (u : UserId) : (finished game id user row).pendingOf u = game.pendingOf u := by
  have hresearches : (finished game id user row).researches = game.researches :=
    researches_updateSetting user row _
  rw [pendingOf, hresearches]
  rfl

variable (game id user) in
theorem pendingOf_started (u : UserId) : ((started game id user row).pendingOf u).Perm
    (if u = user then id :: game.pendingOf u else game.pendingOf u) := by
  have hpending : (started game id user row).researches.pending.Perm
      (⟨user, id⟩ :: game.researches.pending) := Backlog.pending_enqueueAt _ _ _
  exact pendingOf_cons u hpending

theorem subset_pending_aborted {job : ResearchTechnology}
    (hjob : job ∈ (aborted game id user row).researches.pending) : job ∈ game.researches.pending := by
  rcases Backlog.mem_pending.mp hjob with ⟨entry, hentry, rfl⟩ | hready
  · exact Backlog.mem_pending.mpr (.inl ⟨entry, (List.mem_filter.mp hentry).1, rfl⟩)
  · exact Backlog.mem_pending.mpr (.inr hready)

theorem pendingOf_aborted_of_ne {u : UserId} (hu : u ≠ user) :
    (aborted game id user row).pendingOf u = game.pendingOf u := by
  have hfilter : (game.researches.delayed.filter fun entry =>
      entry.job ≠ ⟨user, id⟩).filter (fun entry => entry.job.user = u) =
        game.researches.delayed.filter fun entry => entry.job.user = u := by
    rw [List.filter_filter]
    refine List.filter_congr fun entry _ => ?_
    by_cases huser : entry.job.user = u
    · have hne : entry.job ≠ ⟨user, id⟩ := fun heq => hu (huser.symm.trans (congrArg _ heq))
      simp [huser, hne]
    · simp [huser]
  have hdelayed : ∀ l : List (Delayed ResearchTechnology),
      (l.map Delayed.job).filter (fun job => job.user = u) =
        (l.filter fun entry => entry.job.user = u).map Delayed.job := fun l => List.filter_map
  rw [pendingOf, pendingOf, Backlog.pending, Backlog.pending, List.filter_append,
    List.filter_append, hdelayed, hdelayed,
    show List.filter _ (aborted game id user row).researches.delayed = _ from hfilter]
  rfl

/-- A user without other pending research has none after an abort that finds it. -/
theorem pendingOf_aborted_self
    (hall : ∀ other ∈ game.pendingOf user, other = id ∧ ⟨user, other⟩ ∉ game.researches.ready) :
    (aborted game id user row).pendingOf user = [] := by
  refine List.eq_nil_iff_forall_not_mem.mpr fun other hother => ?_
  have hpending := mem_pendingOf.mp hother
  obtain ⟨rfl, hready⟩ := hall other (mem_pendingOf.mpr (subset_pending_aborted row hpending))
  rcases Backlog.mem_pending.mp hpending with ⟨entry, hentry, hjob⟩ | hmem
  · exact of_decide_eq_true (List.mem_filter.mp hentry).2 hjob
  · exact hready hmem

end Technology

end Mmog

import Mmog.Research.Outcome

/-!
# Flag, job and rank

A user has at most one pending research, the flag names it, and ranks stay
within their bounds, as long as an abort finds all of the user's pending
research.
-/

namespace Mmog

open Ruby Action Game Technology

/-- Nothing is being researched, or one technology whose last rank is not reached. -/
inductive ResearchInv (rules : Rules) (u : UserId) (game : Game) : Prop where
  | idle (pending : game.pendingOf u = []) (flag : (game.profiles u).researching = 0)
  | busy (id : TechnologyId) (row : TechnologyRow) (pending : game.pendingOf u = [id])
      (flag : (game.profiles u).researching = id) (technology : rules.technology id = some row)
      (rank : row.maxRank? (game.ranks u id) = false)

/-- The ranks of a user that have a bound keep to it. -/
def RanksBounded (rules : Rules) (game : Game) (u : UserId) : Prop :=
  ∀ id row, rules.technology id = some row → 1 ≤ row.maxrank →
    ∀ rank, game.ranks u id = some rank → (rank : ℤ) ≤ row.maxrank

/-- An abort of the user finds all of the user's pending research in the delayed set. -/
def Game.AbortsOwn (rules : Rules) (u : UserId) (game : Game) : GameEvent → Bool
  | .abortTechnology id user => user = u → (rules.technology id).isSome →
      ∀ other ∈ game.pendingOf u, other = id ∧ ⟨u, other⟩ ∉ game.researches.ready
  | _ => true

namespace ResearchInv

variable {rules : Rules} {u : UserId} {game : Game}

/-- Only what concerns the user matters. -/
theorem of_perm (hinv : ResearchInv rules u game) {next : Game}
    (hpending : (next.pendingOf u).Perm (game.pendingOf u))
    (hflag : (next.profiles u).researching = (game.profiles u).researching)
    (hranks : next.ranks u = game.ranks u) : ResearchInv rules u next := by
  cases hinv with
  | idle hidle hzero =>
      rw [hidle, List.perm_nil] at hpending
      exact .idle hpending (hflag.trans hzero)
  | busy id row hbusy hid htechnology hrank =>
      rw [hbusy, List.perm_singleton] at hpending
      exact .busy id row hpending (hflag.trans hid) htechnology (hranks ▸ hrank)

/-- Nothing is pending when the flag says so. -/
theorem idle_of_flag (hinv : ResearchInv rules u game) (hzero : (game.profiles u).researching = 0) :
    game.pendingOf u = [] := by
  cases hinv with
  | idle hidle _ => exact hidle
  | busy id row _ hflag htechnology _ =>
      -- the flag is no technology then
      rw [← hflag, hzero, rules.technology_zero] at htechnology
      cases htechnology

/-- A delayed job of the user is the only pending one. -/
theorem pending_of_delayed (hinv : ResearchInv rules u game) {id : TechnologyId}
    {entry : Delayed ResearchTechnology} (hentry : entry ∈ game.researches.delayed)
    (hjob : entry.job = ⟨u, id⟩) :
    game.pendingOf u = [id] ∧ ∀ other, ⟨u, other⟩ ∉ game.researches.ready := by
  have hmem : id ∈ game.pendingOf u :=
    mem_pendingOf.mpr (Backlog.mem_pending.mpr (.inl ⟨entry, hentry, hjob⟩))
  cases hinv with
  | idle hidle _ =>
      rw [hidle] at hmem
      cases hmem
  | busy found row hbusy _ _ _ =>
      refine ⟨?_, fun other hready => ?_⟩
      · rw [hbusy, List.mem_singleton] at hmem
        rw [hbusy, hmem]
      · -- there would be two jobs
        have hlength := congrArg List.length hbusy
        rw [pendingOf, Backlog.pending, List.filter_append, List.length_map, List.length_append,
          List.length_singleton] at hlength
        have hdelayed : entry.job ∈ (game.researches.delayed.map Delayed.job).filter
            fun job => job.user = u := List.mem_filter.mpr
          ⟨List.mem_map_of_mem hentry, decide_eq_true (congrArg ResearchTechnology.user hjob)⟩
        have hother : ⟨u, other⟩ ∈ game.researches.ready.filter fun job => job.user = u :=
          List.mem_filter.mpr ⟨hready, decide_eq_true rfl⟩
        have hfirst := List.length_pos_of_mem hdelayed
        have hsecond := List.length_pos_of_mem hother
        omega

theorem upgrade (hinv : ResearchInv rules u game) (id : TechnologyId) (user : UserId) :
    ResearchInv rules u (after ((upgradeTechnology rules id user).run game)) := by
  rw [upgrade_outcome]
  cases hstartable : startable rules game id user with
  | none => exact hinv
  | some row =>
      obtain ⟨htechnology, hzero, haccepted⟩ := startable_eq_some rules game id user hstartable
      have hpending := pendingOf_started game id user row u
      by_cases hu : u = user
      · subst hu
        rw [if_pos rfl] at hpending
        rw [hinv.idle_of_flag hzero, List.perm_singleton] at hpending
        refine .busy id row hpending ?_ htechnology
          (accepted_of_technologyRequire? rules game id u haccepted).1
        rw [researching_started, if_pos rfl]
      · rw [if_neg hu] at hpending
        refine hinv.of_perm hpending ?_ rfl
        rw [researching_started, if_neg hu]

theorem abort (hinv : ResearchInv rules u game) {id : TechnologyId} {user : UserId}
    (hown : game.AbortsOwn rules u (.abortTechnology id user) = true) :
    ResearchInv rules u (after ((abortTechnology rules id user).run game)) := by
  rw [abort_outcome]
  cases htechnology : rules.technology id with
  | none => exact hinv
  | some row =>
      by_cases hu : u = user
      · subst hu
        have hall := of_decide_eq_true hown rfl (by rw [htechnology]; rfl)
        refine .idle (pendingOf_aborted_self row hall) ?_
        rw [researching_aborted, if_pos rfl]
      · refine hinv.of_perm (List.Perm.of_eq (pendingOf_aborted_of_ne row hu)) ?_ rfl
        rw [researching_aborted, if_neg hu]

/-- A research that is finished was the user's only one, and its last rank was not reached. -/
theorem taken (hinv : ResearchInv rules u game) {job : ResearchTechnology}
    {rest : Backlog ResearchTechnology}
    (htake : game.researches.pending.Perm (job :: rest.pending)) (hu : u = job.user) :
    ∃ row, rules.technology job.technology = some row ∧
      row.maxRank? (game.ranks u job.technology) = false ∧
      game.pendingOf u = [job.technology] ∧
      ({ game with researches := rest } : Game).pendingOf u = [] := by
  have htaken : (game.pendingOf u).Perm
      (if u = job.user then job.technology :: ({ game with researches := rest } : Game).pendingOf u
        else ({ game with researches := rest } : Game).pendingOf u) := Game.pendingOf_cons u htake
  rw [if_pos hu] at htaken
  cases hinv with
  | idle hidle _ =>
      rw [hidle, List.nil_perm] at htaken
      cases htaken
  | busy id row hbusy _ htechnology hrank =>
      rw [hbusy, List.singleton_perm, List.cons_eq_cons] at htaken
      obtain ⟨rfl, hrest⟩ := htaken
      exact ⟨row, htechnology, hrank, hbusy, hrest.symm⟩

theorem pendingOf_of_ne {job : ResearchTechnology} {rest : Backlog ResearchTechnology}
    (htake : game.researches.pending.Perm (job :: rest.pending)) (hu : u ≠ job.user) :
    (({ game with researches := rest } : Game).pendingOf u).Perm (game.pendingOf u) := by
  have htaken : (game.pendingOf u).Perm
      (if u = job.user then job.technology :: ({ game with researches := rest } : Game).pendingOf u
        else ({ game with researches := rest } : Game).pendingOf u) := Game.pendingOf_cons u htake
  rw [if_neg hu] at htaken
  exact htaken.symm

theorem finish (hinv : ResearchInv rules u game) {job : ResearchTechnology}
    {rest : Backlog ResearchTechnology}
    (htake : game.researches.pending.Perm (job :: rest.pending)) :
    ResearchInv rules u (after ((job.perform rules).run { game with researches := rest })) := by
  rw [ResearchTechnology.perform, finish_outcome]
  by_cases hu : u = job.user
  · obtain ⟨row, htechnology, -, -, hrest⟩ := hinv.taken htake hu
    rw [htechnology]
    refine .idle ((pendingOf_finished row u).trans hrest) ?_
    rw [researching_finished, if_pos hu]
  · cases htechnology : rules.technology job.technology with
    | none => exact hinv.of_perm (pendingOf_of_ne htake hu) rfl rfl
    | some row =>
        refine hinv.of_perm ?_ ?_ ?_
        · exact (List.Perm.of_eq (pendingOf_finished row u)).trans (pendingOf_of_ne htake hu)
        · rw [researching_finished, if_neg hu]
        · funext other
          rw [ranks_finished, if_neg fun h => hu h.1]

theorem step (hinv : ResearchInv rules u game) {event : GameEvent} {next : Game}
    (hkind : event.ofResearch = true) (hown : game.AbortsOwn rules u event = true)
    (hstep : event.step rules game = some next) : ResearchInv rules u next := by
  cases event with
  | fleets event =>
      obtain ⟨db, -, rfl⟩ := Option.map_eq_some_iff.mp hstep
      exact hinv.of_perm (List.Perm.refl _) rfl rfl
  | upgradeTechnology id user =>
      cases hstep
      exact hinv.upgrade id user
  | abortTechnology id user =>
      cases hstep
      exact hinv.abort hown
  | fireResearch index =>
      simp only [GameEvent.step] at hstep
      split at hstep
      · rename_i job rest htake
        cases hstep
        exact hinv.finish (Backlog.takeDelayed_eq_some htake).1
      · cases hstep
  | scheduleResearch index =>
      obtain ⟨researches, hschedule, rfl⟩ := Option.map_eq_some_iff.mp hstep
      exact hinv.of_perm (Game.pendingOf_perm u (Backlog.schedule_pending hschedule)) rfl rfl
  | workResearch index =>
      simp only [GameEvent.step] at hstep
      split at hstep
      · rename_i job rest htake
        cases hstep
        exact hinv.finish (Backlog.takeReady_eq_some htake).1
      · cases hstep
  | _ => cases hkind

end ResearchInv

namespace RanksBounded

variable {rules : Rules} {u : UserId} {game : Game}

/-- A rank that has not reached its bound may rise by one. -/
theorem finished_of_lower (hbounded : RanksBounded rules game u) {id : TechnologyId} {user : UserId}
    {row : TechnologyRow} (htechnology : rules.technology id = some row)
    (hrank : row.maxRank? (game.ranks u id) = false) (hu : u = user) :
    RanksBounded rules (finished game id user row) u := by
  subst hu
  intro other found hfound hmaxrank rank hother
  rw [ranks_finished] at hother
  split at hother
  · rename_i heq
    obtain rfl := heq.2
    rw [htechnology, Option.some.injEq] at hfound
    subst hfound
    cases hold : game.ranks u other with
    | none =>
        rw [newRank, hold] at hother
        cases hother
        exact hmaxrank
    | some old =>
        have hle := hbounded other row htechnology hmaxrank old hold
        rw [newRank, hold, Option.elim_some, Option.some.injEq] at hother
        rw [hold, TechnologyRow.maxRank?, Option.any_some, decide_eq_false_iff_not] at hrank
        omega
  · exact hbounded other found hfound hmaxrank rank hother

theorem finish (hbounded : RanksBounded rules game u) (hinv : ResearchInv rules u game)
    {job : ResearchTechnology} {rest : Backlog ResearchTechnology}
    (htake : game.researches.pending.Perm (job :: rest.pending)) :
    RanksBounded rules (after ((job.perform rules).run { game with researches := rest })) u := by
  have htaken : RanksBounded rules ({ game with researches := rest } : Game) u := hbounded
  rw [ResearchTechnology.perform, finish_outcome]
  by_cases hu : u = job.user
  · obtain ⟨row, htechnology, hrank, -, -⟩ := hinv.taken htake hu
    rw [htechnology]
    exact finished_of_lower htaken htechnology hrank hu
  · cases rules.technology job.technology with
    | none => exact htaken
    | some row =>
        intro id found hfound hmaxrank rank hrank
        rw [ranks_finished, if_neg fun h => hu h.1] at hrank
        exact htaken id found hfound hmaxrank rank hrank

theorem step (hbounded : RanksBounded rules game u) (hinv : ResearchInv rules u game)
    {event : GameEvent} {next : Game} (hkind : event.ofResearch = true)
    (hstep : event.step rules game = some next) : RanksBounded rules next u := by
  cases event with
  | fleets event =>
      obtain ⟨db, -, rfl⟩ := Option.map_eq_some_iff.mp hstep
      exact hbounded
  | upgradeTechnology id user =>
      cases hstep
      rw [upgrade_outcome]
      cases startable rules game id user <;> exact hbounded
  | abortTechnology id user =>
      cases hstep
      rw [abort_outcome]
      cases rules.technology id <;> exact hbounded
  | fireResearch index =>
      simp only [GameEvent.step] at hstep
      split at hstep
      · rename_i job rest htake
        cases hstep
        exact hbounded.finish hinv (Backlog.takeDelayed_eq_some htake).1
      · cases hstep
  | scheduleResearch index =>
      obtain ⟨researches, -, rfl⟩ := Option.map_eq_some_iff.mp hstep
      exact hbounded
  | workResearch index =>
      simp only [GameEvent.step] at hstep
      split at hstep
      · rename_i job rest htake
        cases hstep
        exact hbounded.finish hinv (Backlog.takeReady_eq_some htake).1
      · cases hstep
  | _ => cases hkind

end RanksBounded

namespace Technology

/-- Flag, job and rank of a user agree over every run whose aborts find the user's research. -/
theorem research_agrees (rules : Rules) (u : UserId) {start game : Game} {events : List GameEvent}
    (hidle : start.pendingOf u = []) (hflag : (start.profiles u).researching = 0)
    (hbounded : RanksBounded rules start u)
    (hgood : Along (GameEvent.step rules) (fun game event =>
      event.ofResearch = true ∧ game.AbortsOwn rules u event = true) start events)
    (hrun : run (GameEvent.step rules) start events = some game) :
    (game.pendingOf u).length ≤ 1 ∧
      (game.profiles u).researching = (game.pendingOf u).headD 0 ∧
      ∀ id row, rules.technology id = some row → 1 ≤ row.maxrank →
        ∀ rank, game.ranks u id = some rank → (rank : ℤ) ≤ row.maxrank := by
  obtain ⟨hinv, hbounded⟩ :=
    run_keeps (fun game => ResearchInv rules u game ∧ RanksBounded rules game u)
      (fun game event next hinv hgood hstep =>
        ⟨hinv.1.step hgood.1 hgood.2 hstep, hinv.2.step hinv.1 hgood.1 hstep⟩)
      ⟨.idle hidle hflag, hbounded⟩ hgood hrun
  refine ⟨?_, ?_, hbounded⟩
  · cases hinv with
    | idle hpending _ => simp [hpending]
    | busy id row hpending _ _ _ => simp [hpending]
  · cases hinv with
    | idle hpending hzero => rw [hzero, hpending, List.headD_nil]
    | busy id row hpending hid _ _ => rw [hid, hpending, List.headD_cons]

/-- A run that starts, aborts and finishes the research of two technologies. -/
def sampleResearch : List GameEvent :=
  [.upgradeTechnology 1 1, .abortTechnology 1 1, .upgradeTechnology 8 1, .fleets (.wait 900),
    .scheduleResearch 0, .workResearch 0, .upgradeTechnology 1 1]

def researchGame : Game :=
  (run (GameEvent.step Seeds.rules) (Seeds.game Seeds.start) sampleResearch).get (by decide +kernel)

theorem research_agrees_sample :
    researchGame.pendingOf 1 = [1] ∧ (researchGame.profiles 1).researching = 1 ∧
      ∀ rank, researchGame.ranks 1 8 = some rank → (rank : ℤ) ≤ 3 := by
  have hrun : run (GameEvent.step Seeds.rules) (Seeds.game Seeds.start) sampleResearch =
      some researchGame := (Option.some_get _).symm
  have hbounded : RanksBounded Seeds.rules (Seeds.game Seeds.start) 1 := by
    intro id row _ _ rank hrank
    cases hrank
  have hagrees := research_agrees Seeds.rules 1 rfl rfl hbounded (by decide +kernel) hrun
  have hpending : researchGame.pendingOf 1 = [1] := by decide +kernel
  refine ⟨hpending, ?_, hagrees.2.2 8 Seeds.increasedCapacity rfl (by decide)⟩
  rw [hagrees.2.1, hpending, List.headD_cons]

/-- A run in which the abort is given another technology than the one that is being researched. -/
def otherAborted : List GameEvent := [.upgradeTechnology 1 1, .abortTechnology 8 1]

def otherAbortedGame : Game :=
  (run (GameEvent.step Seeds.rules) (Seeds.game Seeds.start) otherAborted).get (by decide)

/-- The flag is cleared while the job is pending. -/
theorem research_not_agrees :
    run (GameEvent.step Seeds.rules) (Seeds.game Seeds.start) otherAborted = some otherAbortedGame ∧
      (∀ event ∈ otherAborted, event.ofResearch = true) ∧
      otherAbortedGame.pendingOf 1 = [1] ∧
      (otherAbortedGame.profiles 1).researching ≠ (otherAbortedGame.pendingOf 1).headD 0 :=
  ⟨(Option.some_get _).symm, by decide, by decide +kernel, by decide +kernel⟩

end Technology

end Mmog

import Mmog.Research.Outcome

/-!
# The technology tree

What a technology requires is tested when its research starts.  Ranks never
fall, so it still holds when the job runs, and ever after.
-/

namespace Mmog

open Ruby Action Game Technology

/-- The user has the technologies that a technology requires. -/
def RequirementsMet (rules : Rules) (ranks : TechnologyId → Option ℕ) (id : TechnologyId) : Prop :=
  ∀ row ∈ rules.requires id, row.preTechId ≠ 0 →
    ∃ rank, ranks row.preTechId = some rank ∧ row.preTechRank ≤ rank

/-- The technologies a user has or researches have what they require. -/
structure TreeClosed (rules : Rules) (u : UserId) (game : Game) : Prop where
  ranked : ∀ id rank, game.ranks u id = some rank → RequirementsMet rules (game.ranks u) id
  pending : ∀ id ∈ game.pendingOf u, RequirementsMet rules (game.ranks u) id

/-- No entry is lost, and no rank falls. -/
def RanksGrow (old new : TechnologyId → Option ℕ) : Prop :=
  ∀ id rank, old id = some rank → ∃ rank', new id = some rank' ∧ rank ≤ rank'

theorem RanksGrow.refl (ranks : TechnologyId → Option ℕ) : RanksGrow ranks ranks :=
  fun _ rank hrank => ⟨rank, hrank, le_refl rank⟩

theorem RequirementsMet.mono {rules : Rules} {old new : TechnologyId → Option ℕ} {id : TechnologyId}
    (hmet : RequirementsMet rules old id) (hgrow : RanksGrow old new) :
    RequirementsMet rules new id := by
  intro row hrow hpre
  obtain ⟨rank, hrank, hle⟩ := hmet row hrow hpre
  obtain ⟨rank', hrank', hgrown⟩ := hgrow row.preTechId rank hrank
  exact ⟨rank', hrank', hle.trans (by exact_mod_cast hgrown)⟩

/-- What `tech_require?` tests. -/
theorem requirementsMet_of_techRequire? {rules : Rules} {ranks : TechnologyId → Option ℕ}
    {id : TechnologyId} (htech : techRequire? rules id ranks = true) :
    RequirementsMet rules ranks id := by
  intro row hrow hpre
  have hmeets := of_decide_eq_true (List.all_eq_true.mp htech row hrow)
  rcases hmeets with hzero | hany
  · exact absurd hzero hpre
  · obtain ⟨rank, hrank, henough⟩ := (Option.any_eq_true _ _).mp hany
    refine ⟨rank, hrank, ?_⟩
    by_contra hless
    have hlow : (rank : ℤ) < row.preTechRank := by omega
    exact of_decide_eq_true henough ⟨hlow, by omega⟩

theorem ranksGrow_finished (game : Game) (id : TechnologyId) (user u : UserId) (row : TechnologyRow) :
    RanksGrow (game.ranks u) ((finished game id user row).ranks u) := by
  intro other rank hrank
  rw [ranks_finished]
  split
  · rename_i heq
    obtain ⟨rfl, rfl⟩ := heq
    exact ⟨rank + 1, by rw [newRank, hrank, Option.elim_some], Nat.le_succ rank⟩
  · exact ⟨rank, hrank, le_refl rank⟩

namespace TreeClosed

variable {rules : Rules} {u : UserId} {game : Game}

/-- Only new research must be tested. -/
theorem of_subset (hclosed : TreeClosed rules u game) {next : Game}
    (hranks : next.ranks u = game.ranks u)
    (hpending : ∀ id ∈ next.pendingOf u,
      id ∈ game.pendingOf u ∨ RequirementsMet rules (game.ranks u) id) :
    TreeClosed rules u next where
  ranked := by
    rw [hranks]
    exact hclosed.ranked
  pending id hid := by
    rw [hranks]
    rcases hpending id hid with hold | hmet
    · exact hclosed.pending id hold
    · exact hmet

theorem upgrade (hclosed : TreeClosed rules u game) (id : TechnologyId) (user : UserId) :
    TreeClosed rules u (after ((upgradeTechnology rules id user).run game)) := by
  rw [upgrade_outcome]
  cases hstartable : startable rules game id user with
  | none => exact hclosed
  | some row =>
      obtain ⟨-, -, haccepted⟩ := startable_eq_some rules game id user hstartable
      refine hclosed.of_subset rfl fun other hother => ?_
      rw [(pendingOf_started game id user row u).mem_iff] at hother
      split at hother
      · rename_i hu
        rcases List.mem_cons.mp hother with rfl | hold
        · have htech := (accepted_of_technologyRequire? rules game other user haccepted).2.2
          exact .inr (hu ▸ requirementsMet_of_techRequire? htech)
        · exact .inl hold
      · exact .inl hother

theorem abort (hclosed : TreeClosed rules u game) (id : TechnologyId) (user : UserId) :
    TreeClosed rules u (after ((abortTechnology rules id user).run game)) := by
  rw [abort_outcome]
  cases rules.technology id with
  | none => exact hclosed
  | some row =>
      refine hclosed.of_subset rfl fun other hother => .inl (mem_pendingOf.mpr ?_)
      exact subset_pending_aborted row (mem_pendingOf.mp hother)

theorem finish (hclosed : TreeClosed rules u game) {job : ResearchTechnology}
    {rest : Backlog ResearchTechnology}
    (htake : game.researches.pending.Perm (job :: rest.pending)) :
    TreeClosed rules u (after ((job.perform rules).run { game with researches := rest })) := by
  let taken : Game := { game with researches := rest }
  have hpending : ∀ id ∈ taken.pendingOf u, id ∈ game.pendingOf u := fun id hid =>
    mem_pendingOf.mpr (htake.mem_iff.mpr (List.mem_cons_of_mem job (mem_pendingOf.mp hid)))
  rw [ResearchTechnology.perform, finish_outcome]
  cases rules.technology job.technology with
  | none => exact hclosed.of_subset rfl fun id hid => .inl (hpending id hid)
  | some row =>
      have hgrow := ranksGrow_finished taken job.technology job.user u row
      constructor
      · intro id rank hrank
        rw [ranks_finished] at hrank
        split at hrank
        · rename_i heq
          obtain ⟨rfl, rfl⟩ := heq
          have hjob : job.technology ∈ game.pendingOf job.user :=
            mem_pendingOf.mpr (htake.mem_iff.mpr List.mem_cons_self)
          exact (hclosed.pending job.technology hjob).mono hgrow
        · exact (hclosed.ranked id rank hrank).mono hgrow
      · intro id hid
        rw [pendingOf_finished] at hid
        exact (hclosed.pending id (hpending id hid)).mono hgrow

theorem step (hclosed : TreeClosed rules u game) {event : GameEvent} {next : Game}
    (hkind : event.ofResearch = true) (hstep : event.step rules game = some next) :
    TreeClosed rules u next := by
  cases event with
  | fleets event =>
      obtain ⟨db, -, rfl⟩ := Option.map_eq_some_iff.mp hstep
      exact hclosed.of_subset rfl fun id hid => .inl hid
  | upgradeTechnology id user =>
      cases hstep
      exact hclosed.upgrade id user
  | abortTechnology id user =>
      cases hstep
      exact hclosed.abort id user
  | fireResearch index =>
      simp only [GameEvent.step] at hstep
      split at hstep
      · rename_i job rest htake
        cases hstep
        exact hclosed.finish (Backlog.takeDelayed_eq_some htake).1
      · cases hstep
  | scheduleResearch index =>
      obtain ⟨researches, hschedule, rfl⟩ := Option.map_eq_some_iff.mp hstep
      refine hclosed.of_subset rfl fun id hid => .inl ?_
      exact (Game.pendingOf_perm u (Backlog.schedule_pending hschedule)).mem_iff.mp hid
  | workResearch index =>
      simp only [GameEvent.step] at hstep
      split at hstep
      · rename_i job rest htake
        cases hstep
        exact hclosed.finish (Backlog.takeReady_eq_some htake).1
      · cases hstep
  | _ => cases hkind

end TreeClosed

namespace Technology

/-- What a user knows or researches has its requirements met, over every run from knowing nothing. -/
theorem tree_stays_closed (rules : Rules) (u : UserId) {start game : Game} {events : List GameEvent}
    (hranks : ∀ id, start.ranks u id = none) (hpending : start.pendingOf u = [])
    (hkind : ∀ event ∈ events, event.ofResearch = true)
    (hrun : run (GameEvent.step rules) start events = some game) :
    ∀ id, (∃ rank, game.ranks u id = some rank ∧ 1 ≤ rank) ∨ id ∈ game.pendingOf u →
      ∀ row ∈ rules.requires id, row.preTechId ≠ 0 →
        ∃ rank, game.ranks u row.preTechId = some rank ∧ row.preTechRank ≤ rank := by
  have hstart : TreeClosed rules u start := by
    constructor
    · intro id rank hrank
      rw [hranks] at hrank
      cases hrank
    · intro id hid
      rw [hpending] at hid
      cases hid
  have hgood : Along (GameEvent.step rules) (fun _ event => event.ofResearch = true) start events :=
    along_of_forall hkind
  have hclosed := run_keeps (TreeClosed rules u)
    (fun game event next hclosed hgood hstep => hclosed.step hgood hstep) hstart hgood hrun
  rintro id (⟨rank, hrank, -⟩ | hid)
  · exact hclosed.ranked id rank hrank
  · exact hclosed.pending id hid

/-- A run in which the large cargo ship is researched after the capacity it requires. -/
def treeClimbed : List GameEvent :=
  [.upgradeTechnology 8 1, .fleets (.wait 900), .scheduleResearch 0, .workResearch 0,
    .upgradeTechnology 10 1]

def climbedGame : Game :=
  (run (GameEvent.step Seeds.rules) (Seeds.game Seeds.start) treeClimbed).get (by decide +kernel)

theorem tree_stays_closed_sample :
    climbedGame.pendingOf 1 = [10] ∧ ∃ rank, climbedGame.ranks 1 8 = some rank ∧ (1 : ℤ) ≤ rank := by
  have hrun : run (GameEvent.step Seeds.rules) (Seeds.game Seeds.start) treeClimbed =
      some climbedGame := (Option.some_get _).symm
  have hpending : climbedGame.pendingOf 1 = [10] := by decide +kernel
  have hclosed := tree_stays_closed Seeds.rules 1 (fun _ => rfl) rfl (by decide) hrun 10
    (.inr (hpending ▸ List.mem_singleton_self 10))
  exact ⟨hpending, hclosed ⟨10, 3, 8, 1⟩ (by decide) (by decide)⟩

end Technology

end Mmog

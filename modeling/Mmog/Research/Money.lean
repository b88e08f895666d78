import Mmog.Research.Agreement

/-!
# The money of a researcher

What a user pays for research and gets back for aborts.  As long as an abort
names research that is under way, it pays back at most half of what was paid
last, and the user is never richer than at the start.
-/

namespace Mmog

open Ruby Action Game Technology

theorem TechnologyRow.getTechnologyCost_nonneg (row : TechnologyRow) (rank : Option ℕ) :
    0 ≤ row.getTechnologyCost rank := by
  have hcost : 0 ≤ (Numeric.float row.cost).value := row.cost_nonneg
  cases rank with
  | none => exact Numeric.round_nonneg hcost
  | some rank =>
      rw [getTechnologyCost]
      refine Numeric.round_nonneg (Numeric.value_mul_nonneg ?_ hcost)
      exact Binary64.round_nonneg (pow_nonneg (by norm_num) rank)

/-- What goes from a user to research, and what comes back. -/
inductive Transfer where
  | paid (technology : TechnologyId) (amount : ℤ)
  | refunded (technology : TechnologyId) (amount : ℤ)
  deriving DecidableEq

/-- A refund directly follows the payment it refunds, and is at most half of it. -/
inductive RefundsFollow : List Transfer → Prop where
  | nil : RefundsFollow []
  | paid {log : List Transfer} (id : TechnologyId) (amount : ℤ) (hlog : RefundsFollow log) :
      RefundsFollow (log ++ [.paid id amount])
  | refunded {log : List Transfer} (id : TechnologyId) {amount back : ℤ}
      (hlog : RefundsFollow log) (hhalf : 2 * back ≤ amount) :
      RefundsFollow (log ++ [.paid id amount, .refunded id back])

namespace Game

/-- The transfers of a user in an event. -/
def transfers (rules : Rules) (u : UserId) (game : Game) : GameEvent → List Transfer
  | .upgradeTechnology id user =>
      if user = u then
        match startable rules game id user with
        | some row => [.paid id (row.getTechnologyCost (game.ranks user id))]
        | none => []
      else []
  | .abortTechnology id user =>
      if user = u then
        match rules.technology id with
        | some row => [.refunded id (row.getTechnologyCost (game.ranks user id) / 2)]
        | none => []
      else []
  | _ => []

/-- An abort of the user names research whose job is in the delayed set. -/
def AbortsDelayed (rules : Rules) (u : UserId) (game : Game) : GameEvent → Bool
  | .abortTechnology id user => user = u → (rules.technology id).isSome →
      game.researches.delayed.any fun entry => entry.job = ⟨u, id⟩
  | _ => true

end Game

/-- What a user has and has paid for, against what the user had at first. -/
structure Accounts (rules : Rules) (u : UserId) (limit : ℤ) (log : List Transfer) (game : Game) :
    Prop where
  research : ResearchInv rules u game
  follow : RefundsFollow log
  idle : game.pendingOf u = [] → (game.db.users u).money ≤ limit
  busy : ∀ id row, game.pendingOf u = [id] → rules.technology id = some row →
    ∃ before, RefundsFollow before ∧
      log = before ++ [.paid id (row.getTechnologyCost (game.ranks u id))] ∧
      (game.db.users u).money + row.getTechnologyCost (game.ranks u id) ≤ limit

namespace Accounts

variable {rules : Rules} {u : UserId} {limit : ℤ} {log : List Transfer} {game : Game}

theorem money_le (haccounts : Accounts rules u limit log game) : (game.db.users u).money ≤ limit := by
  cases haccounts.research with
  | idle hpending _ => exact haccounts.idle hpending
  | busy id row hpending _ htechnology _ =>
      obtain ⟨-, -, -, hmoney⟩ := haccounts.busy id row hpending htechnology
      have hcost := row.getTechnologyCost_nonneg (game.ranks u id)
      omega

/-- Only what concerns the user matters. -/
theorem of_perm (haccounts : Accounts rules u limit log game) {next : Game}
    (hpending : (next.pendingOf u).Perm (game.pendingOf u))
    (hresearch : ResearchInv rules u next) (hranks : next.ranks u = game.ranks u)
    (hmoney : (next.db.users u).money = (game.db.users u).money) :
    Accounts rules u limit (log ++ []) next where
  research := hresearch
  follow := by
    rw [List.append_nil]
    exact haccounts.follow
  idle hidle := by
    rw [hidle, List.nil_perm] at hpending
    rw [hmoney]
    exact haccounts.idle hpending
  busy id row hbusy htechnology := by
    rw [hbusy, List.singleton_perm] at hpending
    rw [List.append_nil, hmoney, hranks]
    exact haccounts.busy id row hpending.symm htechnology

/-- An abort of delayed research finds all that the user has. -/
theorem abortsOwn (hinv : ResearchInv rules u game) {event : GameEvent}
    (hdelayed : game.AbortsDelayed rules u event = true) : game.AbortsOwn rules u event = true := by
  cases event with
  | abortTechnology id user =>
      refine decide_eq_true fun huser hexists other hother => ?_
      obtain ⟨entry, hentry, hjob⟩ := List.any_eq_true.mp (of_decide_eq_true hdelayed huser hexists)
      obtain ⟨hpending, hready⟩ := hinv.pending_of_delayed hentry (of_decide_eq_true hjob)
      rw [hpending, List.mem_singleton] at hother
      exact ⟨hother, hready other⟩
  | _ => rfl

theorem upgrade (haccounts : Accounts rules u limit log game) (id : TechnologyId) (user : UserId) :
    Accounts rules u limit (log ++ game.transfers rules u (.upgradeTechnology id user))
      (after ((upgradeTechnology rules id user).run game)) := by
  have hresearch := haccounts.research.upgrade id user
  rw [upgrade_outcome] at hresearch ⊢
  rw [transfers]
  cases hstartable : startable rules game id user with
  | none =>
      rw [ite_self]
      exact haccounts.of_perm (List.Perm.refl _) haccounts.research rfl rfl
  | some row =>
      rw [hstartable] at hresearch
      have hpending := pendingOf_started game id user row u
      have hmoney := money_started game id user row u
      by_cases hu : u = user
      · subst hu
        rw [if_pos rfl] at hpending hmoney
        rw [if_pos rfl]
        obtain ⟨htechnology, hzero, -⟩ := startable_eq_some rules game id u hstartable
        have hidle := haccounts.research.idle_of_flag hzero
        rw [hidle, List.perm_singleton] at hpending
        have hlimit := haccounts.idle hidle
        refine ⟨hresearch, .paid id _ haccounts.follow, fun hnone => ?_, fun id' row' hbusy hrow => ?_⟩
        · rw [hpending] at hnone
          cases hnone
        · rw [hpending, List.cons_eq_cons] at hbusy
          obtain rfl := hbusy.1
          rw [htechnology, Option.some.injEq] at hrow
          subst hrow
          refine ⟨log, haccounts.follow, rfl, ?_⟩
          rw [hmoney]
          exact (sub_add_cancel _ _).trans_le hlimit
      · rw [if_neg hu] at hpending hmoney
        rw [if_neg (Ne.symm hu)]
        exact haccounts.of_perm hpending hresearch rfl (hmoney.trans (sub_zero _))

theorem abort (haccounts : Accounts rules u limit log game) {id : TechnologyId} {user : UserId}
    (hdelayed : game.AbortsDelayed rules u (.abortTechnology id user) = true) :
    Accounts rules u limit (log ++ game.transfers rules u (.abortTechnology id user))
      (after ((abortTechnology rules id user).run game)) := by
  have hresearch := haccounts.research.abort (abortsOwn haccounts.research hdelayed)
  rw [abort_outcome] at hresearch ⊢
  rw [transfers]
  cases htechnology : rules.technology id with
  | none =>
      rw [ite_self]
      exact haccounts.of_perm (List.Perm.refl _) haccounts.research rfl rfl
  | some row =>
      rw [htechnology] at hresearch
      have hmoney := money_aborted game id user row u
      by_cases hu : u = user
      · subst hu
        rw [if_pos rfl] at hmoney
        rw [if_pos rfl]
        obtain ⟨entry, hentry, hjob⟩ := List.any_eq_true.mp
          (of_decide_eq_true hdelayed rfl (by rw [htechnology]; rfl))
        obtain ⟨hpending, hready⟩ :=
          haccounts.research.pending_of_delayed hentry (of_decide_eq_true hjob)
        obtain ⟨before, hbefore, rfl, hlimit⟩ := haccounts.busy id row hpending htechnology
        have hcost := row.getTechnologyCost_nonneg (game.ranks u id)
        have hnone : (aborted game id u row).pendingOf u = [] := by
          refine pendingOf_aborted_self row fun other hother => ?_
          rw [hpending, List.mem_singleton] at hother
          exact ⟨hother, hready other⟩
        refine ⟨hresearch, ?_, fun _ => ?_, fun id' row' hbusy _ => ?_⟩
        · rw [List.append_assoc]
          exact .refunded id hbefore (by omega)
        · change ((aborted game id u row).db.users u).money ≤ limit
          omega
        · rw [show (aborted game id u row).pendingOf u = [id'] from hbusy] at hnone
          cases hnone
      · rw [if_neg hu] at hmoney
        rw [if_neg (Ne.symm hu)]
        exact haccounts.of_perm (List.Perm.of_eq (pendingOf_aborted_of_ne row hu)) hresearch rfl
          (hmoney.trans (add_zero _))

/-- A finished research is paid for, and costs nothing more. -/
theorem finish (haccounts : Accounts rules u limit log game) {job : ResearchTechnology}
    {rest : Backlog ResearchTechnology}
    (htake : game.researches.pending.Perm (job :: rest.pending)) :
    Accounts rules u limit (log ++ [])
      (after ((job.perform rules).run { game with researches := rest })) := by
  have hresearch := haccounts.research.finish htake
  rw [ResearchTechnology.perform, finish_outcome] at hresearch ⊢
  by_cases hu : u = job.user
  · obtain ⟨row, htechnology, -, -, hrest⟩ := haccounts.research.taken htake hu
    rw [htechnology] at hresearch ⊢
    have hnone : (finished { game with researches := rest } job.technology job.user row).pendingOf u =
        [] := (pendingOf_finished row u).trans hrest
    refine ⟨hresearch, ?_, fun _ => ?_, fun id' row' hbusy _ => ?_⟩
    · rw [List.append_nil]
      exact haccounts.follow
    · exact (money_finished row u).trans_le haccounts.money_le
    · rw [show Game.pendingOf _ u = [id'] from hbusy] at hnone
      cases hnone
  · cases htechnology : rules.technology job.technology with
    | none =>
        rw [htechnology] at hresearch
        exact haccounts.of_perm (ResearchInv.pendingOf_of_ne htake hu) hresearch rfl rfl
    | some row =>
        rw [htechnology] at hresearch
        refine haccounts.of_perm ?_ hresearch ?_ (money_finished row u)
        · exact (List.Perm.of_eq (pendingOf_finished row u)).trans
            (ResearchInv.pendingOf_of_ne htake hu)
        · funext other
          rw [ranks_finished, if_neg fun h => hu h.1]

theorem step (haccounts : Accounts rules u limit log game) {event : GameEvent} {next : Game}
    (hkind : event.ofResearch = true) (hdelayed : game.AbortsDelayed rules u event = true)
    (hstep : event.step rules game = some next) :
    Accounts rules u limit (log ++ game.transfers rules u event) next := by
  cases event with
  | fleets event =>
      cases event with
      | wait seconds =>
          cases hstep
          exact haccounts.of_perm (List.Perm.refl _)
            (haccounts.research.of_perm (List.Perm.refl _) rfl rfl) rfl rfl
      | _ => cases hkind
  | upgradeTechnology id user =>
      cases hstep
      exact haccounts.upgrade id user
  | abortTechnology id user =>
      cases hstep
      exact haccounts.abort hdelayed
  | fireResearch index =>
      simp only [GameEvent.step] at hstep
      split at hstep
      · rename_i job rest htake
        cases hstep
        exact haccounts.finish (Backlog.takeDelayed_eq_some htake).1
      · cases hstep
  | scheduleResearch index =>
      obtain ⟨researches, hschedule, rfl⟩ := Option.map_eq_some_iff.mp hstep
      have hpending : (({ game with researches } : Game).pendingOf u).Perm (game.pendingOf u) :=
        Game.pendingOf_perm u (Backlog.schedule_pending hschedule)
      exact haccounts.of_perm hpending (haccounts.research.of_perm hpending rfl rfl) rfl rfl
  | workResearch index =>
      simp only [GameEvent.step] at hstep
      split at hstep
      · rename_i job rest htake
        cases hstep
        exact haccounts.finish (Backlog.takeReady_eq_some htake).1
      · cases hstep
  | _ => cases hkind

end Accounts

namespace Technology

/-- A run that aborts research that was never started. -/
def neverStarted : List GameEvent := [.abortTechnology 1 1]

end Technology

end Mmog

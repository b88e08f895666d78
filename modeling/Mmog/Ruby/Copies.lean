import Mathlib.Algebra.Group.Basic
import Mathlib.Logic.Function.Basic
import Mathlib.Tactic.Abel
import Mmog.Ruby.Run

/-!
# Copies of a shared value

Clients load a value that they share, change their copies and save them, without
locks.  A save after somebody else's overwrites what that one did.
-/

namespace Mmog.Ruby

/-- A client loads the value, and what it then saves, change by change, depends on what it loaded. -/
inductive Client (α : Type*) where
  | waiting (changes : α → List α)
  | working (copy : α) (changes : List α)

structure Shared (ι α : Type*) where
  value : α
  clients : ι → Client α

namespace Shared

variable {ι α : Type*} [DecidableEq ι] [DecidableEq α] [AddCommGroup α]

/-- A client loads the value, or changes its copy and saves it; an unchanged copy is not saved. -/
def step (s : Shared ι α) (i : ι) : Option (Shared ι α) :=
  match s.clients i with
  | .waiting changes =>
      some { s with clients := Function.update s.clients i (.working s.value (changes s.value)) }
  | .working copy (change :: changes) =>
      some {
        value := if change = 0 then s.value else copy + change
        clients := Function.update s.clients i (.working (copy + change) changes) }
  | .working _ [] => none

/-- The change that the next step of a client saves. -/
def saved (s : Shared ι α) (i : ι) : α :=
  match s.clients i with
  | .working _ (change :: _) => change
  | _ => 0

/-- What others have saved since and the next step of a client undoes. -/
def lost (s : Shared ι α) (i : ι) : α :=
  match s.clients i with
  | .working copy (change :: _) => if change = 0 then 0 else s.value - copy
  | _ => 0

/-- The next step of a client saves a copy of what is no longer there. -/
def Overwrites (s : Shared ι α) (i : ι) : Prop := s.lost i ≠ 0

instance (s : Shared ι α) (i : ι) : Decidable (s.Overwrites i) := inferInstanceAs (Decidable (_ ≠ _))

variable {s next : Shared ι α} {i : ι}

theorem value_step (hstep : s.step i = some next) : next.value = s.value + (s.saved i - s.lost i) := by
  unfold step at hstep
  unfold saved lost
  cases hclient : s.clients i with
  | waiting changes =>
      rw [hclient] at hstep
      cases hstep
      simp
  | working copy changes =>
      rw [hclient] at hstep
      cases changes with
      | nil => cases hstep
      | cons change changes =>
          cases hstep
          dsimp only
          split
          · rename_i hzero
            simp [hzero]
          · abel

/-- Nothing that has no step loses anything. -/
theorem lost_of_finished (hstep : s.step i = none) : s.lost i = 0 := by
  unfold step at hstep
  unfold lost
  cases hclient : s.clients i with
  | waiting changes => rfl
  | working copy changes =>
      rw [hclient] at hstep
      cases changes with
      | nil => rfl
      | cons change changes => cases hstep

/-- What is saved adds up at every moment exactly if no save overwrites another. -/
theorem adds_up_iff (s : Shared ι α) (schedule : List ι) :
    (∀ past future, schedule = past ++ future → ∀ mid, run step s past = some mid →
      mid.value = s.value + sumAlong step saved s past) ↔
    Along step (fun state i => ¬state.Overwrites i) s schedule := by
  constructor
  · intro hall
    apply along_iff.mpr
    intro past i future hsplit mid hmid
    apply not_not.mpr
    cases hstep : mid.step i with
    | none => exact lost_of_finished hstep
    | some next =>
        have hnext : run step s (past ++ [i]) = some next := by
          rw [run_append, hmid, Option.bind_some, run, hstep]
          rfl
        have hbefore := hall past (i :: future) hsplit mid hmid
        have hafter := hall (past ++ [i]) future (by rw [hsplit, List.append_assoc]; rfl) next hnext
        have hsum : sumAlong step saved mid [i] = mid.saved i := by
          rw [sumAlong, hstep]
          exact add_zero _
        rw [sumAlong_append saved hmid, hsum, ← add_assoc, ← hbefore, value_step hstep, add_right_inj,
          sub_eq_self] at hafter
        exact hafter
  · rintro hgood past future rfl mid hmid
    have hkeeps : ∀ (state : Shared ι α) i next, True → ¬state.Overwrites i → step state i = some next →
        True ∧ next.value = state.value + saved state i := by
      intro state i next _ hnot hstep
      refine ⟨trivial, ?_⟩
      rw [value_step hstep, show state.lost i = 0 from not_not.mp hnot, sub_zero]
    exact run_sums hkeeps trivial hgood.of_append hmid

/-! ## One after another -/

/-- A client has loaded the value and has something to save. -/
def IsOpen (s : Shared ι α) (i : ι) : Prop := ∃ copy changes, s.clients i = .working copy changes ∧ changes ≠ []

/-- Nobody saves while another client has something to save. -/
def Alone (s : Shared ι α) (i : ι) : Prop := s.IsOpen i → ∀ j, s.IsOpen j → j = i

/-- Copies that still have something to save are copies of what is there. -/
def Current (s : Shared ι α) : Prop :=
  ∀ i copy changes, s.clients i = .working copy changes → changes ≠ [] → copy = s.value

theorem Current.step (hcurrent : s.Current) (halone : s.Alone i) (hstep : s.step i = some next) : next.Current := by
  unfold Shared.step at hstep
  cases hclient : s.clients i with
  | waiting changes =>
      rw [hclient] at hstep
      cases hstep
      intro j copy left hworking hleft
      dsimp only at hworking
      rw [Function.update_apply] at hworking
      split at hworking
      · cases hworking
        rfl
      · exact hcurrent j copy left hworking hleft
  | working copy changes =>
      rw [hclient] at hstep
      cases changes with
      | nil => cases hstep
      | cons change changes =>
          cases hstep
          have hopen : s.IsOpen i := ⟨copy, change :: changes, hclient, List.cons_ne_nil _ _⟩
          intro j other left hworking hleft
          dsimp only at hworking ⊢
          rw [Function.update_apply] at hworking
          split at hworking
          · cases hworking
            split
            · rename_i hzero
              rw [hzero, add_zero]
              exact hcurrent i copy _ hclient (List.cons_ne_nil _ _)
            · rfl
          · rename_i hne
            exact absurd (halone hopen j ⟨other, left, hworking, hleft⟩) hne

omit [DecidableEq ι] in
theorem Current.not_overwrites (hcurrent : s.Current) (i : ι) : ¬s.Overwrites i := by
  apply not_not.mpr
  unfold lost
  cases hclient : s.clients i with
  | waiting changes => rfl
  | working copy changes =>
      cases changes with
      | nil => rfl
      | cons change changes =>
          dsimp only
          rw [hcurrent i copy _ hclient (List.cons_ne_nil _ _), sub_self, ite_self]

/-- Nothing is overwritten if nobody saves while another client has something to save. -/
theorem not_overwrites_of_alone {s : Shared ι α} {schedule : List ι} (hcurrent : s.Current)
    (halone : Along step Alone s schedule) : Along step (fun state i => ¬state.Overwrites i) s schedule :=
  halone.of_invariant Current (fun _ _ _ hinv hgood hstep => hinv.step hgood hstep)
    (fun _ i hinv _ => hinv.not_overwrites i) hcurrent

end Shared

end Mmog.Ruby

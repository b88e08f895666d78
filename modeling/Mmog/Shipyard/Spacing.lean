import Mmog.Shipyard.Orders

/-!
# One ship after another

The entries of a planet end one construction time after another.  A
cancellation keeps that unless a ship is being built before the cancelled one:
the later entries then move forward into its time.
-/

namespace Mmog

open Ruby Action Game ShipBuildingQueue

/-- Of two entries of a planet the later one ends at least its construction time after the other. -/
def Spaced (rules : Rules) (t : Table ShipBuildingQueue) : Prop :=
  ∀ id id' q q', t.get id = some q → t.get id' = some q' → id < id' → q.planet = q'.planet →
    q.endTime + rules.constructionTime q'.ship ≤ q'.endTime

/-- The entries of a planet in the order of their ids. -/
def Game.entriesOf (game : Game) (planet : PlanetId) : List ShipBuildingQueue :=
  game.entries.filter fun q => q.planet = planet

/-- Nothing moves forward, or what ends before the cancelled entry has ended already. -/
def Game.CancelsCurrent (game : Game) : GameEvent → Bool
  | .removeQueue id => (game.queue.get id).all fun self =>
      behind game self = [] ∨ ∀ row ∈ game.queue.rows, row.1 ≠ id →
        row.2.planet = self.planet → row.2.endTime ≤ self.endTime → row.2.endTime ≤ game.db.now
  | _ => true

namespace Spaced

variable {rules : Rules} {t : Table ShipBuildingQueue}

theorem create (hspaced : Spaced rules t) {new : ShipBuildingQueue}
    (hnew : ∀ id q, t.get id = some q → q.planet = new.planet →
      q.endTime + rules.constructionTime new.ship ≤ new.endTime) : Spaced rules (t.create new) := by
  intro id id' q q' hget hget' hlt hplanet
  rw [Table.get_create] at hget hget'
  split at hget'
  · rename_i hid'
    cases hget'
    rw [if_neg (by omega)] at hget
    exact hnew id q hget hplanet
  · have hlive := Table.lt_nextId hget'
    rw [if_neg (by omega)] at hget
    exact hspaced id id' q q' hget hget' hlt hplanet

theorem destroy (hspaced : Spaced rules t) (id : ℕ) : Spaced rules (t.destroy id) := by
  intro id₁ id₂ q q' hget hget' hlt hplanet
  rw [Table.get_destroy] at hget hget'
  split at hget
  · cases hget
  · split at hget'
    · cases hget'
    · exact hspaced id₁ id₂ q q' hget hget' hlt hplanet

/-- New entries of a planet behind the time at which its old ones have ended. -/
theorem create_entriesFor (hspaced : Spaced rules t) {ship : ShipId} {planet : PlanetId} {n : ℕ}
    {plus : ℤ} {qid : ℕ} (hplus : ∀ id q, t.get id = some q → q.planet = planet → q.endTime ≤ plus) :
    Spaced rules ((entriesFor rules ship planet n plus qid).foldl Table.create t) := by
  induction n generalizing t plus qid with
  | zero => exact hspaced
  | succ n ih =>
      refine ih (hspaced.create fun id q hget hplanet => ?_) fun id q hget hplanet => ?_
      · have hended := hplus id q hget hplanet
        dsimp only
        omega
      · rw [Table.get_create] at hget
        split at hget
        · cases hget
          exact le_refl _
        · have hended := hplus id q hget hplanet
          dsimp only
          omega

end Spaced

namespace Game

variable {rules : Rules} {game : Game}

/-- The last entry of a planet is the one that ends last. -/
theorem ended_nextSlot (hspaced : Spaced rules game.queue) (planet : PlanetId) {id : ℕ}
    {q : ShipBuildingQueue} (hget : game.queue.get id = some q) (hplanet : q.planet = planet) :
    q.endTime ≤ (nextSlot game planet).2 := by
  unfold nextSlot
  cases hany : game.queue.last fun _ => true with
  | none => cases Table.last_eq_none hany hget
  | some entry =>
      dsimp only
      cases hlast : game.queue.last fun q => q.planet = planet with
      | none => exact absurd hplanet (of_decide_eq_false (Table.last_eq_none hlast hget))
      | some plus =>
          obtain ⟨last, plus⟩ := plus
          obtain ⟨hget', hplanet'⟩ := Table.last_eq_some hlast
          rcases lt_or_eq_of_le (Table.le_last hlast hget (decide_eq_true hplanet)) with hlt | rfl
          · have hspace := hspaced id last q plus hget hget' hlt
              (hplanet.trans (of_decide_eq_true hplanet').symm)
            dsimp only
            omega
          · rw [hget] at hget'
            cases hget'
            exact le_refl _

theorem spaced_placed (hspaced : Spaced rules game.queue) (planet : PlanetId)
    (ships : List (ShipId × ℤ)) : Spaced rules (placed rules planet game ships).queue := by
  induction ships generalizing game with
  | nil => exact hspaced
  | cons entry rest ih =>
      refine ih (hspaced.create_entriesFor fun id q hget hplanet => ?_)
      exact ended_nextSlot hspaced planet hget hplanet

theorem get_cancelled {id other : ℕ} {self q : ShipBuildingQueue}
    (hget : (cancelled game id self).queue.get other = some q) :
    other ≠ id ∧ ∃ old, game.queue.get other = some old ∧ moved game.db.now self old = q := by
  rw [show (cancelled game id self).queue = (game.queue.mapRows _).destroy id from rfl,
    Table.get_destroy] at hget
  split at hget
  · cases hget
  · rename_i hne
    exact ⟨hne, Option.map_eq_some_iff.mp hget⟩

theorem moved_of_endsAfter {now : ℕ} {self q : ShipBuildingQueue}
    (hafter : endsAfter self.planet self.endTime q = true) :
    (moved now self q).endTime = q.endTime - (self.endTime - now) := by
  rw [moved, if_pos hafter]

theorem moved_of_not_endsAfter {now : ℕ} {self q : ShipBuildingQueue}
    (hafter : ¬ endsAfter self.planet self.endTime q = true) : moved now self q = q := by
  rw [moved, if_neg hafter]

/-- What the cancelled entry was being built for moves the later ones forward to the present. -/
theorem spaced_cancelled (hspaced : Spaced rules game.queue) {id : ℕ} {self : ShipBuildingQueue}
    (hget : game.queue.get id = some self)
    (hcurrent : game.CancelsCurrent (.removeQueue id) = true) :
    Spaced rules (cancelled game id self).queue := by
  intro id₁ id₂ q₁ q₂ hget₁ hget₂ hlt hplanet
  obtain ⟨hne₁, old₁, hold₁, rfl⟩ := get_cancelled hget₁
  obtain ⟨hne₂, old₂, hold₂, rfl⟩ := get_cancelled hget₂
  have hship := congrArg AddShip.ship (job_moved game.db.now self old₂)
  have hplanet₁ := congrArg AddShip.planet (job_moved game.db.now self old₁)
  have hplanet₂ := congrArg AddShip.planet (job_moved game.db.now self old₂)
  simp only [job] at hship hplanet₁ hplanet₂
  rw [hplanet₁, hplanet₂] at hplanet
  rw [hship]
  have hspace := hspaced id₁ id₂ old₁ old₂ hold₁ hold₂ hlt hplanet
  by_cases hafter₁ : endsAfter self.planet self.endTime old₁ = true <;>
    by_cases hafter₂ : endsAfter self.planet self.endTime old₂ = true
  · rw [moved_of_endsAfter hafter₁, moved_of_endsAfter hafter₂]
    omega
  · -- the second entry would end no later than the first, which ends after `self`
    have hends₁ := of_decide_eq_true hafter₁
    refine absurd (decide_eq_true ⟨?_, ?_⟩) hafter₂
    · exact hplanet.symm.trans hends₁.1
    · have hlater := hends₁.2
      omega
  · -- only the second entry moves: it still follows `self`, and the first one has ended
    have hends₂ := of_decide_eq_true hafter₂
    have hends₁ : old₁.endTime ≤ self.endTime := by
      by_contra hlater
      exact hafter₁ (decide_eq_true ⟨hplanet.trans hends₂.1, by omega⟩)
    have hself : self.endTime + rules.constructionTime old₂.ship ≤ old₂.endTime := by
      rcases lt_or_gt_of_ne hne₂ with hbefore | hbehind
      · have hspace := hspaced id₂ id old₂ self hold₂ hget hbefore hends₂.1
        have hlater := hends₂.2
        omega
      · exact hspaced id id₂ self old₂ hget hold₂ hbehind hends₂.1.symm
    have hended : old₁.endTime ≤ game.db.now := by
      rw [CancelsCurrent, hget, Option.all_some] at hcurrent
      rcases of_decide_eq_true hcurrent with hnone | hall
      · have hmem : old₂ ∈ behind game self :=
          List.mem_filter.mpr ⟨mem_entries_iff.mpr ⟨id₂, hold₂⟩, hafter₂⟩
        rw [hnone] at hmem
        cases hmem
      · exact hall (id₁, old₁) (Table.mem_rows.mpr hold₁) hne₁ (hplanet.trans hends₂.1) hends₁
    rw [moved_of_not_endsAfter hafter₁, moved_of_endsAfter hafter₂]
    omega
  · rw [moved_of_not_endsAfter hafter₁, moved_of_not_endsAfter hafter₂]
    exact hspace

theorem spaced_dropped (hspaced : Spaced rules game.queue) (qid : ℕ) :
    Spaced rules (dropped game qid).queue := by
  unfold dropped
  split
  · exact hspaced.destroy _
  · exact hspaced

theorem spaced_perform (hspaced : Spaced rules game.queue) (job : AddShip) (rest : Backlog AddShip) :
    Spaced rules (after ((job.perform rules).run { game with addShips := rest })).queue := by
  by_cases hreceives : ({ game with addShips := rest } : Game).db.Receives job.planet
  · obtain ⟨db, hafter⟩ := AddShip.perform_delivers rules hreceives
    rw [hafter]
    exact spaced_dropped (show Spaced rules (({ game with addShips := rest } : Game).setDb db).queue
      from hspaced) job.qid
  · obtain ⟨db, hafter⟩ := AddShip.perform_fails rules hreceives
    rw [hafter]
    exact hspaced

theorem spaced_step (hspaced : Spaced rules game.queue) {event : GameEvent} {next : Game}
    (hkind : event.atShipyard = true) (hcurrent : game.CancelsCurrent event = true)
    (hstep : event.step rules game = some next) : Spaced rules next.queue := by
  cases event with
  | fleets event =>
      obtain ⟨db, -, rfl⟩ := Option.map_eq_some_iff.mp hstep
      exact hspaced
  | claim planet user =>
      cases hstep
      rwa [after_onDb]
  | give planet type number =>
      cases hstep
      rwa [after_onDb]
  | take planet type number =>
      cases hstep
      rwa [after_onDb]
  | insert planet ships =>
      cases hstep
      obtain ⟨db, houtcome | houtcome⟩ := insert_outcome rules ships planet game
      · rwa [houtcome]
      · rw [houtcome]
        exact spaced_placed (show Spaced rules (game.setDb db).queue from hspaced) planet _
  | removeQueue id =>
      cases hstep
      cases hget : game.queue.get id with
      | none => rwa [removeQueue_of_none rules hget]
      | some self =>
          obtain ⟨db, houtcome⟩ := removeQueue_outcome rules hget
          rw [houtcome]
          exact spaced_cancelled hspaced hget hcurrent
  | fireShip index =>
      simp only [GameEvent.step] at hstep
      split at hstep
      · cases hstep
        exact spaced_perform hspaced _ _
      · cases hstep
  | scheduleShip index =>
      obtain ⟨addShips, -, rfl⟩ := Option.map_eq_some_iff.mp hstep
      exact hspaced
  | workShip index =>
      simp only [GameEvent.step] at hstep
      split at hstep
      · cases hstep
        exact spaced_perform hspaced _ _
      · cases hstep
  | _ => cases hkind

theorem pairwise_entriesOf (hspaced : Spaced rules game.queue) (planet : PlanetId) :
    (game.entriesOf planet).Pairwise fun (first second : ShipBuildingQueue) =>
      first.endTime + rules.constructionTime second.ship ≤ second.endTime := by
  have hentries : game.entries.Pairwise fun (first second : ShipBuildingQueue) =>
      first.planet = second.planet →
        first.endTime + rules.constructionTime second.ship ≤ second.endTime := by
    refine List.pairwise_map.mpr (game.queue.rows_pairwise.imp_of_mem ?_)
    intro row row' hrow hrow' hlt hplanet
    exact hspaced row.1 row'.1 row.2 row'.2 (Table.mem_rows.mp hrow) (Table.mem_rows.mp hrow') hlt
      hplanet
  refine (hentries.filter fun q => q.planet = planet).imp_of_mem ?_
  intro first second hfirst hsecond hspace
  have hplanet := of_decide_eq_true (List.mem_filter.mp hfirst).2
  exact hspace (hplanet.trans (of_decide_eq_true (List.mem_filter.mp hsecond).2).symm)

/-- The last of a list of spaced entries ends after all their construction times. -/
theorem sum_le_last {first : ShipBuildingQueue} {rest : List ShipBuildingQueue}
    (hspaced : (first :: rest).Pairwise fun (first second : ShipBuildingQueue) =>
      first.endTime + rules.constructionTime second.ship ≤ second.endTime) :
    first.endTime + (rest.map fun q => (rules.constructionTime q.ship : ℤ)).sum ≤
      ((first :: rest).getLast (List.cons_ne_nil first rest)).endTime := by
  induction rest generalizing first with
  | nil => simp
  | cons second rest ih =>
      have hspace := List.rel_of_pairwise_cons hspaced List.mem_cons_self
      have hrest := ih (List.Pairwise.of_cons hspaced)
      rw [List.getLast_cons (List.cons_ne_nil second rest), List.map_cons, List.sum_cons]
      omega

end Game

namespace ShipBuildingQueue

/-- A planet builds its ships one after another, over every run that only cancels in turn. -/
theorem ships_one_after_another (rules : Rules) {start game : Game} {events : List GameEvent}
    (hstart : start.NoOrders)
    (hgood : Along (GameEvent.step rules) (fun game event =>
      event.atShipyard = true ∧ game.CancelsCurrent event = true) start events)
    (hrun : run (GameEvent.step rules) start events = some game) :
    (∀ planet, (game.entriesOf planet).IsChain fun (first second : ShipBuildingQueue) =>
      first.endTime + rules.constructionTime second.ship ≤ second.endTime) ∧
    ∀ planet first rest, game.entriesOf planet = first :: rest →
      first.endTime - game.db.now + (rest.map fun q => (rules.constructionTime q.ship : ℤ)).sum ≤
        ((first :: rest).getLast (List.cons_ne_nil first rest)).endTime - game.db.now := by
  have hspaced : Spaced rules game.queue := by
    refine run_keeps (fun game => Spaced rules game.queue) (fun game event next hspaced hgood hstep =>
      Game.spaced_step hspaced hgood.1 hgood.2 hstep) ?_ hgood hrun
    intro id id' q q' hget
    rw [hstart.queue] at hget
    cases hget
  refine ⟨fun planet => (pairwise_entriesOf hspaced planet).isChain, ?_⟩
  intro planet first rest hentries
  have hlast := sum_le_last (hentries ▸ pairwise_entriesOf hspaced planet)
  omega

/-- A run that orders three ships and cancels the first. -/
def inTurn : List GameEvent := [.insert 1 (.single 3 3), .fleets (.wait 100), .removeQueue 1]

def inTurnGame : Game :=
  (run (GameEvent.step Seeds.rules) (Seeds.game Seeds.start) inTurn).get (by decide)

theorem ships_one_after_another_sample :
    inTurnGame.entriesOf 1 = [⟨3, 1, 1340, 1⟩, ⟨3, 1, 1580, 2⟩] ∧
      (inTurnGame.entriesOf 1).IsChain fun (first second : ShipBuildingQueue) =>
        first.endTime + Seeds.rules.constructionTime second.ship ≤ second.endTime := by
  have hrun : run (GameEvent.step Seeds.rules) (Seeds.game Seeds.start) inTurn = some inTurnGame :=
    (Option.some_get _).symm
  have hspaced := ships_one_after_another Seeds.rules ⟨fun _ => rfl, rfl⟩ (by decide) hrun
  exact ⟨by decide, hspaced.1 1⟩

/-- A run that orders three ships and cancels the second, while the first is being built. -/
def outOfTurn : List GameEvent := [.insert 1 (.single 3 3), .removeQueue 2]

def outOfTurnGame : Game :=
  (run (GameEvent.step Seeds.rules) (Seeds.game Seeds.start) outOfTurn).get (by decide)

/-- The third ship moves forward by the time of both and ends with the first. -/
theorem ships_not_one_after_another :
    run (GameEvent.step Seeds.rules) (Seeds.game Seeds.start) outOfTurn = some outOfTurnGame ∧
      (Seeds.game Seeds.start).NoOrders ∧ (∀ event ∈ outOfTurn, event.atShipyard = true) ∧
      outOfTurnGame.entriesOf 1 = [⟨3, 1, 1240, 0⟩, ⟨3, 1, 1240, 2⟩] ∧
      ¬ (outOfTurnGame.entriesOf 1).IsChain fun (first second : ShipBuildingQueue) =>
        first.endTime + Seeds.rules.constructionTime second.ship ≤ second.endTime := by
  have hentries : outOfTurnGame.entriesOf 1 = [⟨3, 1, 1240, 0⟩, ⟨3, 1, 1240, 2⟩] := by
    decide
  refine ⟨(Option.some_get _).symm, ⟨fun _ => rfl, rfl⟩, by decide, hentries, ?_⟩
  rw [hentries]
  decide

end ShipBuildingQueue

end Mmog

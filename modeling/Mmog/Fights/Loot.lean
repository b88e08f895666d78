import Mmog.Game.Holdings
import Mmog.Model.Fight
import Mmog.Model.Seeds

/-!
# Loot

What is wanted adds up to the capacity, and what one resource falls short is at
most added to the others, so that what is got fits in and is really there.
-/

namespace Mmog.Fight

open Ruby Action Planet

/-! ## What is wanted -/

def Wanted.total (wanted : Wanted) : ℤ := wanted.crystal + wanted.ore + wanted.money

theorem trim_of_le {capacity : ℤ} {wanted : Wanted} (hle : wanted.total ≤ capacity) (fuel : ℕ) :
    trim capacity fuel wanted = wanted := by
  cases fuel with
  | zero => rfl
  | succ fuel => exact if_neg (not_lt.mpr hle)

/-- The correction comes to an end: every round takes seven from the total. -/
theorem trim_total_le {capacity : ℤ} {wanted : Wanted} {fuel : ℕ}
    (hfuel : wanted.total - capacity ≤ fuel) : (trim capacity fuel wanted).total ≤ capacity := by
  induction fuel generalizing wanted with
  | zero =>
      rw [Nat.cast_zero] at hfuel
      exact sub_nonpos.mp hfuel
  | succ fuel ih =>
      rw [trim]
      split
      · apply ih
        push_cast at hfuel
        unfold Wanted.total at hfuel ⊢
        dsimp only
        omega
      · rename_i hdone
        exact not_lt.mp hdone

/-- More rounds than needed change nothing. -/
theorem trim_stable {capacity : ℤ} {wanted : Wanted} {fuel more : ℕ}
    (hfuel : wanted.total - capacity ≤ fuel) (hmore : fuel ≤ more) :
    trim capacity more wanted = trim capacity fuel wanted := by
  induction fuel generalizing wanted more with
  | zero =>
      rw [Nat.cast_zero] at hfuel
      exact trim_of_le (sub_nonpos.mp hfuel) more
  | succ fuel ih =>
      obtain ⟨rest, rfl⟩ := Nat.exists_eq_add_of_le hmore
      rw [Nat.add_right_comm, trim, trim]
      split
      · apply ih _ (Nat.le_add_right fuel rest)
        push_cast at hfuel
        unfold Wanted.total at hfuel ⊢
        dsimp only
        omega
      · rfl

/-- The crystal that is wanted. -/
def wantedCrystal (draws : Draws) (capacity : ℤ) : ℤ :=
  (((capacity / 3 : ℤ) : Numeric) * .float draws.crystalRate).round

section Wanted

variable (draws : Draws) {capacity : ℤ} (hcapacity : 0 ≤ capacity)

theorem round_oreRate : (Numeric.float draws.oreRate).round = 1 := by
  obtain ⟨hlow, hhigh⟩ := draws.oreRate_mem
  rw [Numeric.round, if_pos (by linarith), Int.floor_eq_iff]
  constructor
  · push_cast
    linarith
  · push_cast
    linarith

include hcapacity

theorem wantedCrystal_nonneg : 0 ≤ wantedCrystal draws capacity := by
  apply Numeric.round_nonneg
  apply Numeric.value_mul_nonneg
  · change (0 : ℚ) ≤ ((capacity / 3 : ℤ) : ℚ)
    exact_mod_cast Int.ediv_nonneg hcapacity (by norm_num : (0 : ℤ) ≤ 3)
  · exact (by norm_num : (0 : ℚ) ≤ 4 / 5).trans draws.crystalRate_mem.1

/-- At most double the third of the capacity is wanted, and rounding does not make it thrice. -/
theorem wantedCrystal_le : wantedCrystal draws capacity ≤ capacity := by
  have hthird : 0 ≤ capacity / 3 := Int.ediv_nonneg hcapacity (by norm_num)
  have hthird' : (0 : ℚ) ≤ (capacity / 3 : ℤ) := by exact_mod_cast hthird
  obtain ⟨hlow, hhigh⟩ := draws.crystalRate_mem
  have hfirst := (abs_le.mp (Binary64.abs_round_sub_le_mul hthird')).2
  have hfirst' := Binary64.round_nonneg hthird'
  have hproduct : Binary64.round (capacity / 3 : ℤ) * draws.crystalRate ≤
      Binary64.round (capacity / 3 : ℤ) * 2 := mul_le_mul_of_nonneg_left hhigh hfirst'
  have hproduct' : 0 ≤ Binary64.round (capacity / 3 : ℤ) * draws.crystalRate :=
    mul_nonneg hfirst' (by linarith)
  have hsecond := (abs_le.mp (Binary64.abs_round_sub_le_mul hproduct')).2
  have hvalue : wantedCrystal draws capacity =
      (Numeric.float (Binary64.round (Binary64.round (capacity / 3 : ℤ) * draws.crystalRate))).round := rfl
  rw [hvalue, Numeric.round, if_pos (Binary64.round_nonneg hproduct')]
  have hthrice : Binary64.round (Binary64.round (capacity / 3 : ℤ) * draws.crystalRate) ≤
      ((3 * (capacity / 3) : ℤ) : ℚ) := by
    push_cast
    norm_num at hfirst hsecond ⊢
    linarith
  have hfloor : ⌊Binary64.round (Binary64.round (capacity / 3 : ℤ) * draws.crystalRate) + 1 / 2⌋ ≤
      3 * (capacity / 3) := by
    apply Int.floor_le_iff.mpr
    linarith
  omega

omit hcapacity in
/-- The ore that is wanted is the rest, so that no money is wanted at first. -/
theorem wantedFor_eq : wantedFor draws capacity =
    ⟨wantedCrystal draws capacity, capacity - wantedCrystal draws capacity, 0⟩ := by
  have hore : (capacity - wantedCrystal draws capacity) * (Numeric.float draws.oreRate).round =
      capacity - wantedCrystal draws capacity := by rw [round_oreRate, mul_one]
  have hmoney : capacity - (wantedCrystal draws capacity + (capacity - wantedCrystal draws capacity)) = 0 := by
    ring
  unfold wantedFor
  dsimp only
  rw [← wantedCrystal, hore, hmoney]
  apply trim_of_le
  unfold Wanted.total
  dsimp only
  omega

end Wanted

/-! ## What is got -/

theorem got_bounds {old n : ℤ} (hold : 0 ≤ old) (hn : 0 ≤ n) : 0 ≤ got old n ∧ got old n ≤ old ∧ got old n ≤ n := by
  unfold got
  split
  · omega
  · omega

/-- What is taken is what is got of each resource, one after the other, and the planet and its owner have so
much less. -/
theorem loot_apply (draws : Draws) (self : Fleet) (planet : PlanetId) (db : Db) :
    let wanted := wantedFor draws self.ressourceCapacity
    let crystal := got (db.holding planet .crystal) wanted.crystal
    let half := (wanted.crystal - crystal) / 2
    let ore := got (db.holding planet .ore) (wanted.ore + half)
    let money := got (db.holding planet .money) (wanted.money + half + (wanted.ore + half - ore))
    ∃ next, (loot draws self planet).run db = .ok { self with ore, crystal, credit := money } next ∧
      next.holding planet .ore = db.holding planet .ore - ore ∧
      next.holding planet .crystal = db.holding planet .crystal - crystal ∧
      next.holding planet .money = db.holding planet .money - money := by
  intro wanted crystal half ore money
  let h := db.holding planet
  let h₁ := Function.update h .crystal (h .crystal - crystal)
  let h₂ := Function.update h₁ .ore (h .ore - ore)
  let h₃ := Function.update h₂ .money (h .money - money)
  have hh : ∀ type, ¬db.CanHold planet type → h type = 0 := fun type => Db.holding_eq_zero
  have hkept : ∀ {f : Resource → ℤ} (type : Resource) (n : ℤ), db.CanHold planet type →
      (∀ found, ¬db.CanHold planet found → f found = 0) →
      ∀ found, ¬db.CanHold planet found → Function.update f type n found = 0 := by
    intro f type n hhold hf found hnot
    have hne : found ≠ type := by
      rintro rfl
      exact hnot hhold
    rw [Function.update_of_ne hne]
    exact hf found hnot
  have hh₁ := hkept .crystal (h .crystal - crystal) trivial hh
  have hh₂ := hkept .ore (h .ore - ore) trivial hh₁
  have hcrystal : (take planet .crystal wanted.crystal).run db = .ok (.int crystal) (db.withHoldings planet h₁) := by
    have htake := take_apply hh .crystal wanted.crystal
    rwa [Db.withHoldings_holding] at htake
  have hore : (take planet .ore (wanted.ore + half : ℤ)).run (db.withHoldings planet h₁) =
      .ok (.int ore) (db.withHoldings planet h₂) := take_apply hh₁ .ore (wanted.ore + half)
  have hmoney : (take planet .money (wanted.money + half + (wanted.ore + half - ore) : ℤ)).run
      (db.withHoldings planet h₂) = .ok (.int money) (db.withHoldings planet h₃) :=
    take_apply hh₂ .money (wanted.money + half + (wanted.ore + half - ore))
  let looted : Fleet := { self with ore, crystal, credit := money }
  have hgot : ∀ n, h .money = 0 → got (h .money) n = 0 := by
    intro n hzero
    rw [hzero, got]
    split <;> omega
  have hh₃ : ∀ found, ¬db.CanHold planet found → h₃ found = 0 := by
    intro found hnot
    cases found with
    | money =>
        have hzero := hh .money hnot
        change h .money - got (h .money) _ = 0
        rw [hgot _ hzero, hzero, sub_zero]
    | other => exact hh .other hnot
    | ore | crystal | population | energy => exact absurd trivial hnot
  have hholding : ∀ type, (after (looted.save.run (db.withHoldings planet h₃))).holding planet type = h₃ type :=
    Db.holding_withHoldings h₃ hh₃
  refine ⟨after (looted.save.run (db.withHoldings planet h₃)), ?_, hholding .ore, hholding .crystal, hholding .money⟩
  refine (run_bind_of_ok hcrystal _).trans ?_
  refine (run_bind_of_ok hore _).trans ?_
  exact (run_bind_of_ok hmoney _).trans rfl

/-- The correction of what is wanted ends, and an attacker who wins gets no more of anything than
there is, nor more in total than the fleet that is left can carry. -/
theorem loot_fits (draws : Draws) (self : Fleet) (planet : PlanetId) (db : Db) {owner : UserId}
    (howner : (db.planets planet).user = some owner) (hcapacity : 0 ≤ self.ressourceCapacity)
    (hore : 0 ≤ (db.planets planet).ore) (hcrystal : 0 ≤ (db.planets planet).crystal)
    (hmoney : 0 ≤ (db.users owner).money) :
    (∀ wanted : Wanted, ∃ rounds, ∀ fuel, rounds ≤ fuel →
      trim self.ressourceCapacity fuel wanted = trim self.ressourceCapacity rounds wanted ∧
      (trim self.ressourceCapacity rounds wanted).total ≤ self.ressourceCapacity) ∧
    ∃ looted next, (loot draws self planet).run db = .ok looted next ∧
      (0 ≤ looted.ore ∧ looted.ore ≤ (db.planets planet).ore) ∧
      (0 ≤ looted.crystal ∧ looted.crystal ≤ (db.planets planet).crystal) ∧
      (0 ≤ looted.credit ∧ looted.credit ≤ (db.users owner).money) ∧
      looted.ore + looted.crystal + looted.credit ≤ self.ressourceCapacity := by
  constructor
  · intro wanted
    refine ⟨(wanted.total - self.ressourceCapacity).toNat, fun fuel hfuel => ?_⟩
    have hrounds : wanted.total - self.ressourceCapacity ≤ (wanted.total - self.ressourceCapacity).toNat :=
      Int.self_le_toNat _
    exact ⟨trim_stable hrounds hfuel, trim_total_le hrounds⟩
  · obtain ⟨next, hrun, -⟩ := loot_apply draws self planet db
    have hnonneg := wantedCrystal_nonneg draws hcapacity
    have hle := wantedCrystal_le draws hcapacity
    have hholding : db.holding planet .money = (db.users owner).money := by
      rw [Db.holding, howner]
      rfl
    rw [wantedFor_eq, hholding] at hrun
    dsimp only at hrun
    let wanted := wantedCrystal draws self.ressourceCapacity
    have hgotCrystal := got_bounds hcrystal hnonneg
    let half := (wanted - got (db.planets planet).crystal wanted) / 2
    have hhalf : 0 ≤ half := Int.ediv_nonneg (sub_nonneg.mpr hgotCrystal.2.2) (by norm_num)
    have htwice : 2 * half ≤ wanted - got (db.planets planet).crystal wanted :=
      Int.mul_ediv_self_le (by norm_num)
    have hwantedOre : 0 ≤ self.ressourceCapacity - wanted + half := by omega
    have hgotOre := got_bounds hore hwantedOre
    have hwantedMoney : 0 ≤ 0 + half + (self.ressourceCapacity - wanted + half -
        got (db.planets planet).ore (self.ressourceCapacity - wanted + half)) := by omega
    have hgotMoney := got_bounds hmoney hwantedMoney
    refine ⟨_, next, hrun, ⟨hgotOre.1, hgotOre.2.1⟩, ⟨hgotCrystal.1, hgotCrystal.2.1⟩,
      ⟨hgotMoney.1, hgotMoney.2.1⟩, ?_⟩
    have hlast := hgotMoney.2.2
    change got (db.planets planet).ore (self.ressourceCapacity - wanted + half) +
      got (db.planets planet).crystal wanted + got (db.users owner).money (0 + half +
        (self.ressourceCapacity - wanted + half -
          got (db.planets planet).ore (self.ressourceCapacity - wanted + half))) ≤ self.ressourceCapacity
    omega

/-- A fleet that is left with room for a hundred loots planet 11. -/
theorem loot_fits_small : ∃ looted next,
    (loot ({} : Draws) { Seeds.scout with ressourceCapacity := 100 } 11).run Seeds.start = .ok looted next ∧
      (0 ≤ looted.ore ∧ looted.ore ≤ 20000) ∧ (0 ≤ looted.crystal ∧ looted.crystal ≤ 100) ∧
      (0 ≤ looted.credit ∧ looted.credit ≤ 20000) ∧ looted.ore + looted.crystal + looted.credit ≤ 100 :=
  (loot_fits ({} : Draws) { Seeds.scout with ressourceCapacity := 100 } 11 Seeds.start
    (show (Seeds.start.planets 11).user = some 2 from rfl) (by decide) (by decide) (by decide) (by decide)).2

end Mmog.Fight

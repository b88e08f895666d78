import Mmog.Game.Holdings
import Mmog.Model.Seeds
import Mmog.Shipyard.Queue

/-!
# Paying for ships

An order takes the sum of the prices of all its amounts, also of those below
zero, for which no entries are made.  A refused order gives back what it took.
-/

namespace Mmog

open Ruby Action Game Planet

/-- What one ship costs of a resource. -/
def Rules.price (rules : Rules) : Resource → ShipId → ℕ
  | .ore, ship => (rules.ship ship).oreCost
  | .crystal, ship => (rules.ship ship).crystalCost
  | .money, ship => (rules.ship ship).creditCost
  | .population, ship => rules.crewCapacity ship
  | .energy, _ => 0
  | .other, _ => 0

namespace ShipBuildingQueue

variable (rules : Rules) (s : Hash ShipId ℤ) (planet : PlanetId) (game : Game)

/-- What an order is charged of a resource. -/
def charge (type : Resource) : ℤ := cost (rules.price type) s

/-- What an order gets of a resource. -/
def paid (type : Resource) : ℤ := got (game.db.holding planet type) (charge rules s type)

/-- Everything that is charged is there. -/
def Affordable : Prop := ∀ type, paid rules s planet game type = charge rules s type

theorem charge_energy : charge rules s .energy = 0 := by
  simp [charge, cost, Hash.sum, Rules.price]

theorem charge_other : charge rules s .other = 0 := by
  simp [charge, cost, Hash.sum, Rules.price]

theorem paid_of_charge {type : Resource} (hcharge : charge rules s type = 0) :
    paid rules s planet game type = 0 := by
  rw [paid, hcharge]
  exact if_pos le_rfl

theorem affordable_iff : Affordable rules s planet game ↔
    paid rules s planet game .ore = charge rules s .ore ∧
      paid rules s planet game .money = charge rules s .money ∧
      paid rules s planet game .crystal = charge rules s .crystal ∧
      paid rules s planet game .population = charge rules s .population := by
  constructor
  · intro hall
    exact ⟨hall .ore, hall .money, hall .crystal, hall .population⟩
  · rintro ⟨hore, hmoney, hcrystal, hpopulation⟩ type
    cases type with
    | ore => exact hore
    | crystal => exact hcrystal
    | population => exact hpopulation
    | money => exact hmoney
    | energy => rw [charge_energy, paid_of_charge rules s planet game (charge_energy rules s)]
    | other => rw [charge_other, paid_of_charge rules s planet game (charge_other rules s)]

/-- What is left after the order took what it got. -/
def left (type : Resource) : ℤ := game.db.holding planet type - paid rules s planet game type

/-- What is there after the order gave back what it got. -/
def givenBack (type : Resource) : ℤ :=
  grown game.db planet type (left rules s planet game type) (paid rules s planet game type)

theorem paid_eq_zero {type : Resource} (hnot : ¬game.db.CanHold planet type) :
    paid rules s planet game type = 0 := by
  unfold paid got
  split
  · rfl
  · rename_i hpos
    rw [Db.holding_eq_zero hnot, min_eq_left (by omega)]

/-- The four takes of an order, one after the other. -/
theorem takes_apply : ∃ db₁ db₂ db₃ : Db,
    (take planet .ore (charge rules s .ore)).run game.db = .ok (paid rules s planet game .ore) db₁ ∧
    (take planet .crystal (charge rules s .crystal)).run db₁ = .ok (paid rules s planet game .crystal) db₂ ∧
    (take planet .money (charge rules s .money)).run db₂ = .ok (paid rules s planet game .money) db₃ ∧
    (take planet .population (charge rules s .population)).run db₃ =
      .ok (paid rules s planet game .population) (game.db.withHoldings planet (left rules s planet game)) := by
  let h := game.db.holding planet
  let h₁ := Function.update h .ore (left rules s planet game .ore)
  let h₂ := Function.update h₁ .crystal (left rules s planet game .crystal)
  let h₃ := Function.update h₂ .money (left rules s planet game .money)
  have hleft : Function.update h₃ .population (left rules s planet game .population) =
      left rules s planet game := by
    funext type
    cases type with
    | energy =>
        change h .energy = h .energy - paid rules s planet game .energy
        rw [paid_of_charge rules s planet game (charge_energy rules s), sub_zero]
    | other =>
        change h .other = h .other - paid rules s planet game .other
        rw [paid_of_charge rules s planet game (charge_other rules s), sub_zero]
    | _ => rfl
  have hzero : ∀ type, ¬game.db.CanHold planet type → h type = 0 ∧ left rules s planet game type = 0 := by
    intro type hnot
    have hholding := Db.holding_eq_zero hnot
    exact ⟨hholding, by rw [left, hholding, paid_eq_zero rules s planet game hnot, sub_zero]⟩
  have hupdate : ∀ {f : Resource → ℤ} (type : Resource), (∀ found, ¬game.db.CanHold planet found → f found = 0) →
      ∀ found, ¬game.db.CanHold planet found →
        Function.update f type (left rules s planet game type) found = 0 := by
    intro f type hf found hnot
    by_cases heq : found = type
    · subst heq
      rw [Function.update_self]
      exact (hzero found hnot).2
    · rw [Function.update_of_ne heq]
      exact hf found hnot
  have hh := fun type hnot => (hzero type hnot).1
  have hh₁ := hupdate .ore hh
  have hh₂ := hupdate .crystal hh₁
  have hh₃ := hupdate .money hh₂
  refine ⟨game.db.withHoldings planet h₁, game.db.withHoldings planet h₂, game.db.withHoldings planet h₃,
    ?_, ?_, ?_, ?_⟩
  · have htake := take_apply hh .ore (charge rules s .ore)
    rwa [Db.withHoldings_holding] at htake
  · exact take_apply hh₁ .crystal (charge rules s .crystal)
  · exact take_apply hh₂ .money (charge rules s .money)
  · have htake := take_apply hh₃ .population (charge rules s .population)
    rw [← hleft]
    exact htake

/-- The four gives of a refused order, one after the other. -/
theorem gives_apply : ∃ (back₁ back₂ back₃ back₄ : Numeric) (db₁ db₂ db₃ : Db),
    (give planet .ore (paid rules s planet game .ore)).run
      (game.db.withHoldings planet (left rules s planet game)) = .ok back₁ db₁ ∧
    (give planet .crystal (paid rules s planet game .crystal)).run db₁ = .ok back₂ db₂ ∧
    (give planet .money (paid rules s planet game .money)).run db₂ = .ok back₃ db₃ ∧
    (give planet .population (paid rules s planet game .population)).run db₃ =
      .ok back₄ (game.db.withHoldings planet (givenBack rules s planet game)) := by
  let h := left rules s planet game
  let h₁ := Function.update h .ore (givenBack rules s planet game .ore)
  let h₂ := Function.update h₁ .crystal (givenBack rules s planet game .crystal)
  let h₃ := Function.update h₂ .money (givenBack rules s planet game .money)
  have hback : Function.update h₃ .population (givenBack rules s planet game .population) =
      givenBack rules s planet game := by
    funext type
    cases type with
    | energy =>
        refine (if_pos ?_).symm
        rw [paid_of_charge rules s planet game (charge_energy rules s)]
    | other =>
        refine (if_pos ?_).symm
        rw [paid_of_charge rules s planet game (charge_other rules s)]
    | _ => rfl
  have hore := give_apply game.db planet h .ore (paid rules s planet game .ore)
  have hcrystal := give_apply game.db planet h₁ .crystal (paid rules s planet game .crystal)
  have hmoney := give_apply game.db planet h₂ .money (paid rules s planet game .money)
  have hpopulation := give_apply game.db planet h₃ .population (paid rules s planet game .population)
  rw [← hback]
  exact ⟨_, _, _, _, _, _, _, hore, hcrystal, hmoney, hpopulation⟩

/-- An order that can be paid is queued, and any other one gives back what it got. -/
theorem insert_apply [Decidable (Affordable rules s planet game)] :
    (insert rules s planet).run game = if Affordable rules s planet game then
        .ok true (placed rules planet
          (game.setDb (game.db.withHoldings planet (left rules s planet game))) s.entries)
      else .ok false (game.setDb (game.db.withHoldings planet (givenBack rules s planet game))) := by
  obtain ⟨db₁, db₂, db₃, hore, hcrystal, hmoney, hpopulation⟩ := takes_apply rules s planet game
  have hcondition : (Numeric.int (paid rules s planet game .ore) = .int (charge rules s .ore) ∧
      Numeric.int (paid rules s planet game .money) = .int (charge rules s .money) ∧
      Numeric.int (paid rules s planet game .crystal) = .int (charge rules s .crystal) ∧
      Numeric.int (paid rules s planet game .population) = .int (charge rules s .population)) ↔
      Affordable rules s planet game := by
    rw [affordable_iff]
    simp only [Numeric.int.injEq]
  rw [insert]
  refine (run_bind_of_ok (run_onDb_of_ok hore) _).trans ?_
  refine (run_bind_of_ok (run_onDb_of_ok hcrystal) _).trans ?_
  refine (run_bind_of_ok (run_onDb_of_ok hmoney) _).trans ?_
  refine (run_bind_of_ok (run_onDb_of_ok hpopulation) _).trans ?_
  by_cases haffordable : Affordable rules s planet game
  · rw [if_pos haffordable]
    refine (congrArg (fun action : GameAct Bool => action.run _) (if_pos (hcondition.mpr haffordable))).trans ?_
    exact (run_bind_of_ok (insertAll_apply rules planet _ s.entries) _).trans rfl
  · rw [if_neg haffordable]
    refine (congrArg (fun action : GameAct Bool => action.run _) (if_neg (mt hcondition.mp haffordable))).trans ?_
    obtain ⟨back₁, back₂, back₃, back₄, db₁, db₂, db₃, hore, hcrystal, hmoney, hpopulation⟩ :=
      gives_apply rules s planet game
    refine (run_bind_of_ok (run_onDb_of_ok hore) _).trans ?_
    refine (run_bind_of_ok (run_onDb_of_ok hcrystal) _).trans ?_
    refine (run_bind_of_ok (run_onDb_of_ok hmoney) _).trans ?_
    exact (run_bind_of_ok (run_onDb_of_ok hpopulation) _).trans rfl

/-! ## Refused orders -/

variable {rules s planet game}

/-- What was taken fits in again. -/
theorem givenBack_eq (hplanet : ∀ type, type ≠ .money → type ≠ .other → type ≠ .energy →
      0 ≤ game.db.holding planet type ∧ game.db.holding planet type ≤ (game.db.planets planet).maximum type)
    (hmoney : 0 ≤ game.db.holding planet .money) : givenBack rules s planet game = game.db.holding planet := by
  funext type
  have hpaid : 0 ≤ game.db.holding planet type → 0 ≤ paid rules s planet game type := by
    intro hholding
    unfold paid got
    split
    · exact le_rfl
    · exact le_min hholding (by omega)
  have hnothing : paid rules s planet game type ≤ 0 → 0 ≤ paid rules s planet game type →
      givenBack rules s planet game type = game.db.holding planet type := by
    intro hle hge
    refine (if_pos hle).trans ?_
    rw [left, le_antisymm hle hge, sub_zero]
  have hstored : type ≠ .money → type ≠ .other → type ≠ .energy →
      givenBack rules s planet game type = game.db.holding planet type := by
    intro hmoney hother henergy
    obtain ⟨hlow, hhigh⟩ := hplanet type hmoney hother henergy
    by_cases hle : paid rules s planet game type ≤ 0
    · exact hnothing hle (hpaid hlow)
    · have hsum : left rules s planet game type + paid rules s planet game type =
          game.db.holding planet type := by
        rw [left]
        ring
      unfold givenBack grown
      rw [if_neg hle]
      have hmin : min ((game.db.planets planet).maximum type)
          (left rules s planet game type + paid rules s planet game type) =
          game.db.holding planet type := by
        rw [hsum, min_eq_right hhigh]
      cases type with
      | money => exact absurd rfl hmoney
      | other => exact absurd rfl hother
      | _ => exact hmin
  cases type with
  | ore => exact hstored nofun nofun nofun
  | crystal => exact hstored nofun nofun nofun
  | population => exact hstored nofun nofun nofun
  | money =>
      by_cases hle : paid rules s planet game .money ≤ 0
      · exact hnothing hle (hpaid hmoney)
      · have howner : (game.db.planets planet).user.isSome = true := by
          by_contra hnot
          exact hle (paid_eq_zero rules s planet game (show ¬game.db.CanHold planet .money from hnot)).le
        refine (if_neg hle).trans ((if_pos howner).trans ?_)
        rw [left]
        ring
  | energy =>
      have hpaid := paid_of_charge rules s planet game (charge_energy rules s)
      exact hnothing hpaid.le hpaid.ge
  | other =>
      have hpaid := paid_of_charge rules s planet game (charge_other rules s)
      exact hnothing hpaid.le hpaid.ge

/-- A refused order leaves the whole game as it was. -/
theorem refused_changes_nothing (rules : Rules) (s : Hash ShipId ℤ) (planet : PlanetId) (game : Game)
    (hore : 0 ≤ (game.db.planets planet).ore ∧ (game.db.planets planet).ore ≤ (game.db.planets planet).maxore)
    (hcrystal : 0 ≤ (game.db.planets planet).crystal ∧
      (game.db.planets planet).crystal ≤ (game.db.planets planet).maxcrystal)
    (hpopulation : 0 ≤ (game.db.planets planet).population ∧
      (game.db.planets planet).population ≤ (game.db.planets planet).maxpopulation)
    (hmoney : ∀ owner, (game.db.planets planet).user = some owner → 0 ≤ (game.db.users owner).money)
    (hrefused : value? ((insert rules s planet).run game) = some false) :
    after ((insert rules s planet).run game) = game := by
  classical
  rw [insert_apply] at hrefused ⊢
  split at hrefused
  · cases hrefused
  · rename_i haffordable
    have hrich : 0 ≤ game.db.holding planet .money := by
      rw [Db.holding]
      cases huser : (game.db.planets planet).user with
      | none => exact le_rfl
      | some owner => exact hmoney owner huser
    have hsame : givenBack rules s planet game = game.db.holding planet := by
      refine givenBack_eq (fun type hne hother henergy => ?_) hrich
      cases type with
      | ore => exact hore
      | crystal => exact hcrystal
      | population => exact hpopulation
      | money => exact absurd rfl hne
      | energy => exact absurd rfl henergy
      | other => exact absurd rfl hother
    rw [if_neg haffordable, hsame, Db.withHoldings_holding]
    rfl

/-- A thousand cargo ships are too many, and one cargo ship less does not help. -/
theorem refused_changes_nothing_sample :
    after ((insert Seeds.rules ⟨[(1, 1000), (2, -1)], by decide⟩ 1).run (Seeds.game Seeds.start)) =
      Seeds.game Seeds.start :=
  refused_changes_nothing Seeds.rules _ 1 _ (by decide) (by decide) (by decide)
    (fun owner howner => by
      obtain rfl : 1 = owner := Option.some.inj howner
      decide)
    (by decide)

/-! ## Accepted orders -/

/-- The entries of the first game's table and those that came to it. -/
theorem filter_rows_foldl_create (t : Table ShipBuildingQueue) (new : List ShipBuildingQueue) :
    ((new.foldl Table.create t).rows.filter fun row => t.nextId ≤ row.1).map Prod.snd = new := by
  induction new using List.reverseRecOn with
  | nil =>
      rw [List.foldl_nil, List.filter_eq_nil_iff.mpr]
      · rfl
      · intro row hrow hle
        exact absurd (of_decide_eq_true hle) (not_le.mpr (Table.lt_nextId (Table.mem_rows.mp hrow)))
  | append_singleton new q ih =>
      have hnext : t.nextId ≤ (new.foldl Table.create t).nextId := by
        have hlength := Table.nextId_createAll t new
        rw [Table.createAll] at hlength
        omega
      rw [List.foldl_append, List.foldl_cons, List.foldl_nil, Table.rows_create, List.filter_append,
        List.map_append, ih, List.filter_eq_self.mpr]
      · rfl
      · intro row hrow
        obtain rfl := List.mem_singleton.mp hrow
        exact decide_eq_true hnext

variable (rules planet) in
/-- The entries that an order of these ships makes. -/
def ordered : Game → List (ShipId × ℤ) → List ShipBuildingQueue
  | _, [] => []
  | game, (ship, value) :: rest =>
      let (qid, plus) := nextSlot game planet
      let new := entriesFor rules ship planet value.toNat plus qid
      new ++ ordered (append game new) rest

theorem append_append (game : Game) (first second : List ShipBuildingQueue) :
    append (append game first) second = append game (first ++ second) := by
  unfold append
  rw [List.foldl_append, List.foldl_append]

theorem placed_eq_append (game : Game) (ships : List (ShipId × ℤ)) :
    placed rules planet game ships = append game (ordered rules planet game ships) := by
  induction ships generalizing game with
  | nil => rfl
  | cons entry rest ih => exact (ih _).trans (append_append game _ _)

/-- Each ship is queued as often as it is asked for, and not at all below zero. -/
theorem sum_ordered (value : ShipId → ℤ) (game : Game) (ships : List (ShipId × ℤ)) :
    ((ordered rules planet game ships).map fun q => value q.ship).sum =
      (ships.map fun entry => value entry.1 * entry.2.toNat).sum := by
  have hentries : ∀ (ship : ShipId) (n : ℕ) (plus : ℤ) (qid : ℕ),
      ((entriesFor rules ship planet n plus qid).map fun q => value q.ship).sum = value ship * n := by
    intro ship n
    induction n with
    | zero =>
        intro plus qid
        exact (mul_zero _).symm
    | succ n ih =>
        intro plus qid
        rw [entriesFor, List.map_cons, List.sum_cons, ih, Nat.cast_succ]
        ring
  induction ships generalizing game with
  | nil => rfl
  | cons entry rest ih =>
      unfold ordered
      dsimp only
      rw [List.map_append, List.sum_append, ih, hentries, List.map_cons, List.sum_cons]

/-- A sum of prices leaves out the amounts below zero exactly if these ships are free. -/
theorem sum_toNat_eq_iff (price : ShipId → ℕ) (ships : List (ShipId × ℤ)) :
    (ships.map fun entry => (price entry.1 : ℤ) * entry.2).sum =
        (ships.map fun entry => (price entry.1 : ℤ) * entry.2.toNat).sum ↔
      ∀ entry ∈ ships, entry.2 < 0 → price entry.1 = 0 := by
  have hle : ∀ entry : ShipId × ℤ, (price entry.1 : ℤ) * entry.2 ≤ (price entry.1 : ℤ) * entry.2.toNat :=
    fun entry => mul_le_mul_of_nonneg_left (Int.self_le_toNat _) (Nat.cast_nonneg _)
  have hterm : ∀ entry : ShipId × ℤ, (price entry.1 : ℤ) * entry.2 = (price entry.1 : ℤ) * entry.2.toNat ↔
      (entry.2 < 0 → price entry.1 = 0) := by
    intro entry
    by_cases hneg : entry.2 < 0
    · rw [Int.toNat_of_nonpos hneg.le, Nat.cast_zero, mul_zero, mul_eq_zero, Nat.cast_eq_zero]
      constructor
      · intro heither _
        exact heither.resolve_right hneg.ne
      · intro hfree
        exact .inl (hfree hneg)
    · rw [Int.toNat_of_nonneg (not_lt.mp hneg)]
      exact ⟨fun _ hlt => absurd hlt hneg, fun _ => rfl⟩
  induction ships with
  | nil => simp
  | cons entry rest ih =>
      have hrest : (rest.map fun entry => (price entry.1 : ℤ) * entry.2).sum ≤
          (rest.map fun entry => (price entry.1 : ℤ) * entry.2.toNat).sum :=
        List.sum_le_sum fun other _ => hle other
      rw [List.map_cons, List.sum_cons, List.map_cons, List.sum_cons, List.forall_mem_cons,
        ih.symm, (hterm entry).symm]
      constructor
      · intro hsum
        have hfirst := hle entry
        constructor
        · omega
        · omega
      · rintro ⟨hfirst, hsum⟩
        rw [hfirst, hsum]

/-- The entries of the second game that the first one had not given an id yet. -/
def newEntries (before after : Game) : List ShipBuildingQueue :=
  (after.queue.rows.filter fun row => before.queue.nextId ≤ row.1).map Prod.snd

theorem accepted_outcome (haccepted : value? ((insert rules s planet).run game) = some true) :
    Affordable rules s planet game ∧ after ((insert rules s planet).run game) =
      append (game.setDb (game.db.withHoldings planet (left rules s planet game)))
        (ordered rules planet (game.setDb (game.db.withHoldings planet (left rules s planet game))) s.entries) := by
  classical
  rw [insert_apply] at haccepted ⊢
  split at haccepted
  · rename_i haffordable
    rw [if_pos haffordable, ← placed_eq_append]
    exact ⟨haffordable, rfl⟩
  · cases haccepted

theorem holding_left (type : Resource) :
    (game.db.withHoldings planet (left rules s planet game)).holding planet type = left rules s planet game type := by
  refine Db.holding_withHoldings _ (fun found hnot => ?_) type
  rw [left, Db.holding_eq_zero hnot, paid_eq_zero rules s planet game hnot, sub_zero]

/-- An accepted order is charged what its entries cost exactly if every ship that is asked for
less than zero times is free. -/
theorem charged_iff (rules : Rules) (s : Hash ShipId ℤ) (planet : PlanetId) (game : Game)
    (haccepted : value? ((insert rules s planet).run game) = some true) :
    (∀ type, game.db.holding planet type - (after ((insert rules s planet).run game)).db.holding planet type =
        ((newEntries game (after ((insert rules s planet).run game))).map fun q =>
          (rules.price type q.ship : ℤ)).sum) ↔
      ∀ entry ∈ s.entries, entry.2 < 0 → ∀ type, rules.price type entry.1 = 0 := by
  obtain ⟨haffordable, hafter⟩ := accepted_outcome haccepted
  have hcharged : ∀ type,
      game.db.holding planet type - (after ((insert rules s planet).run game)).db.holding planet type =
        (s.entries.map fun entry => (rules.price type entry.1 : ℤ) * entry.2).sum := by
    intro type
    rw [hafter]
    change _ - (game.db.withHoldings planet (left rules s planet game)).holding planet type = _
    rw [holding_left, left, sub_sub_cancel, haffordable type]
    rfl
  have hnew : newEntries game (after ((insert rules s planet).run game)) = ordered rules planet
      (game.setDb (game.db.withHoldings planet (left rules s planet game))) s.entries := by
    rw [newEntries, hafter]
    exact filter_rows_foldl_create game.queue _
  have hequal : ∀ type,
      game.db.holding planet type - (after ((insert rules s planet).run game)).db.holding planet type =
        ((newEntries game (after ((insert rules s planet).run game))).map fun q =>
          (rules.price type q.ship : ℤ)).sum ↔
      ∀ entry ∈ s.entries, entry.2 < 0 → rules.price type entry.1 = 0 := by
    intro type
    rw [hnew, hcharged, sum_ordered (fun ship => (rules.price type ship : ℤ))]
    exact sum_toNat_eq_iff (rules.price type) s.entries
  constructor
  · intro hall entry hentry hneg type
    exact (hequal type).mp (hall type) entry hentry hneg
  · intro hall type
    exact (hequal type).mpr fun entry hentry hneg => hall entry hentry hneg type

/-- Two cargo ships and one that is free. -/
theorem charged_iff_sample :
    (Seeds.game Seeds.start).db.holding 1 .money -
        (after ((insert Seeds.rules ⟨[(1, 2), (11, -1)], by decide⟩ 1).run (Seeds.game Seeds.start))).db.holding
          1 .money =
      ((newEntries (Seeds.game Seeds.start)
        (after ((insert Seeds.rules ⟨[(1, 2), (11, -1)], by decide⟩ 1).run (Seeds.game Seeds.start)))).map
          fun q => (Seeds.rules.price .money q.ship : ℤ)).sum :=
  (charged_iff Seeds.rules ⟨[(1, 2), (11, -1)], by decide⟩ 1 (Seeds.game Seeds.start) (by decide)).mpr
    (by
      intro entry hentry hneg type
      rcases List.mem_cons.mp hentry with rfl | hentry
      · exact absurd hneg (by decide)
      · obtain rfl := List.mem_singleton.mp hentry
        cases type <;> rfl) .money

/-- Eight ships are cheaper for whoever asks for one cargo ship less than none as well. -/
theorem negative_amounts_pay :
    ¬ ∀ (rules : Rules) (s : Hash ShipId ℤ) (planet : PlanetId) (game : Game),
      value? ((insert rules s planet).run game) = some true → ∀ type,
        game.db.holding planet type - (after ((insert rules s planet).run game)).db.holding planet type =
          ((newEntries game (after ((insert rules s planet).run game))).map fun q =>
            (rules.price type q.ship : ℤ)).sum := by
  intro hall
  have hmoney := hall Seeds.rules ⟨[(3, 8), (1, -1)], by decide⟩ 1 (Seeds.game Seeds.start) (by decide)
    .money
  revert hmoney
  decide

end ShipBuildingQueue

end Mmog

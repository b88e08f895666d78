import Mmog.Model.Planet
import Mmog.Ruby.Action

/-!
# Holdings

What a planet and its owner have of each resource, and what taking and giving
whole amounts makes of it.
-/

namespace Mmog

open Ruby Action

/-- What a planet has of a resource; money is that of its owner. -/
def Db.holding (db : Db) (p : PlanetId) : Resource → ℤ
  | .money => ((db.planets p).user.map fun u => (db.users u).money).getD 0
  | type => (db.planets p).stock type

/-- The cargo of a fleet by kind. -/
def Cargo.amount (cargo : Cargo) : Resource → ℤ
  | .ore => cargo.ore
  | .crystal => cargo.crystal
  | .money => cargo.credit
  | _ => 0

namespace Db

variable (db : Db) (p : PlanetId)

/-- Something of the resource can be kept; a planet without an owner has no money. -/
def CanHold : Resource → Prop
  | .money => (db.planets p).user.isSome = true
  | .other => False
  | _ => True

/-- The stocks of the planet and the money of its owner as given. -/
def withHoldings (h : Resource → ℤ) : Db :=
  { db with
    planets := fun q => if q = p then
      { db.planets p with
        ore := h .ore
        crystal := h .crystal
        population := h .population
        energy := h .energy } else db.planets q
    users := fun v =>
      if (db.planets p).user = some v then { db.users v with money := h .money } else db.users v }

theorem withHoldings_holding : db.withHoldings p (db.holding p) = db := by
  have hplanets : (db.withHoldings p (db.holding p)).planets = db.planets := by
    funext q
    by_cases hq : q = p
    · rw [hq]
      exact if_pos rfl
    · exact if_neg hq
  have husers : (db.withHoldings p (db.holding p)).users = db.users := by
    funext v
    by_cases hv : (db.planets p).user = some v
    · refine (if_pos hv).trans ?_
      rw [holding, hv]
      rfl
    · exact if_neg hv
  change { db with
    planets := (db.withHoldings p (db.holding p)).planets
    users := (db.withHoldings p (db.holding p)).users } = db
  rw [hplanets, husers]

variable {db p} (h : Resource → ℤ)

theorem planets_withHoldings : (db.withHoldings p h).planets p =
    { db.planets p with
      ore := h .ore
      crystal := h .crystal
      population := h .population
      energy := h .energy } := if_pos rfl

@[simp] theorem user_withHoldings : ((db.withHoldings p h).planets p).user = (db.planets p).user := by
  rw [planets_withHoldings]

@[simp] theorem maximum_withHoldings (type : Resource) :
    ((db.withHoldings p h).planets p).maximum type = (db.planets p).maximum type := by
  rw [planets_withHoldings]
  cases type <;> rfl

theorem money_withHoldings {u : UserId} (huser : (db.planets p).user = some u) :
    ((db.withHoldings p h).users u).money = h .money :=
  congrArg User.money (if_pos huser)

theorem canHold_withHoldings (type : Resource) : (db.withHoldings p h).CanHold p type ↔ db.CanHold p type := by
  cases type with
  | money =>
      unfold CanHold
      rw [user_withHoldings]
  | _ => rfl

theorem holding_withHoldings_of_canHold {type : Resource} (hhold : db.CanHold p type) :
    (db.withHoldings p h).holding p type = h type := by
  cases type with
  | money =>
      obtain ⟨u, huser⟩ := Option.isSome_iff_exists.mp hhold
      rw [holding, user_withHoldings, huser]
      exact money_withHoldings h huser
  | other => exact absurd hhold id
  | ore => rw [holding, planets_withHoldings]; rfl; exact nofun
  | crystal => rw [holding, planets_withHoldings]; rfl; exact nofun
  | population => rw [holding, planets_withHoldings]; rfl; exact nofun
  | energy => rw [holding, planets_withHoldings]; rfl; exact nofun

theorem holding_eq_zero {type : Resource} (hnot : ¬db.CanHold p type) : db.holding p type = 0 := by
  cases type with
  | money =>
      have huser : (db.planets p).user = none := Option.not_isSome_iff_eq_none.mp hnot
      rw [holding, huser]
      rfl
  | other => rfl
  | ore => exact absurd trivial hnot
  | crystal => exact absurd trivial hnot
  | population => exact absurd trivial hnot
  | energy => exact absurd trivial hnot

/-- Holdings as given are those that can be kept. -/
theorem holding_withHoldings (hh : ∀ type, ¬db.CanHold p type → h type = 0) (type : Resource) :
    (db.withHoldings p h).holding p type = h type := by
  by_cases hhold : db.CanHold p type
  · exact holding_withHoldings_of_canHold h hhold
  · rw [hh type hhold]
    exact holding_eq_zero fun hheld => hhold ((canHold_withHoldings h type).mp hheld)

theorem setStock_withHoldings {type : Resource} (hmoney : type ≠ .money) (hother : type ≠ .other) (n : ℤ) :
    (db.withHoldings p h).setPlanet p (((db.withHoldings p h).planets p).setStock type n) =
      db.withHoldings p (Function.update h type n) := by
  have hplanets : ((db.withHoldings p h).setPlanet p
      (((db.withHoldings p h).planets p).setStock type n)).planets =
      (db.withHoldings p (Function.update h type n)).planets := by
    funext q
    by_cases hq : q = p
    · rw [hq]
      refine (if_pos rfl).trans ?_
      rw [planets_withHoldings, planets_withHoldings]
      cases type with
      | money => exact absurd rfl hmoney
      | other => exact absurd rfl hother
      | ore => rfl
      | crystal => rfl
      | population => rfl
      | energy => rfl
    · exact (if_neg hq).trans ((if_neg hq).trans (if_neg hq).symm)
  have husers : (db.withHoldings p h).users = (db.withHoldings p (Function.update h type n)).users := by
    funext v
    change (if _ then { db.users v with money := h .money } else db.users v) = if _ then _ else _
    rw [Function.update_of_ne hmoney.symm]
  exact congrArg₂ (fun planets users => { db with planets, users }) hplanets husers

theorem setMoney_withHoldings {u : UserId} (huser : (db.planets p).user = some u) (n : ℤ) :
    (db.withHoldings p h).setMoney u n = db.withHoldings p (Function.update h .money n) := by
  have husers : ((db.withHoldings p h).setMoney u n).users =
      (db.withHoldings p (Function.update h .money n)).users := by
    funext v
    by_cases hv : v = u
    · rw [hv]
      refine (if_pos rfl).trans ?_
      change { (if _ then { db.users u with money := h .money } else db.users u) with money := n } =
        if _ then _ else _
      rw [if_pos huser, if_pos huser, Function.update_self]
    · have hne : (db.planets p).user ≠ some v := by
        rw [huser]
        exact fun heq => hv (Option.some.inj heq).symm
      exact (if_neg hv).trans ((if_neg hne).trans (if_neg hne).symm)
  exact congrArg (fun users => { db.withHoldings p h with users }) husers

end Db

namespace Planet

/-- How much of a whole number is got from what there is. -/
def got (old n : ℤ) : ℤ := if n ≤ 0 then 0 else min old n

/-- What there is after a whole number was given: a store is filled up at most, and money needs
an owner. -/
def grown (db : Db) (p : PlanetId) (type : Resource) (old n : ℤ) : ℤ :=
  if n ≤ 0 then old
  else match type with
    | .money => if (db.planets p).user.isSome then old + n else old
    | .other => old
    | type => min ((db.planets p).maximum type) (old + n)

/-- What comes back when a whole number is given. -/
def back (db : Db) (p : PlanetId) (type : Resource) (old n : ℤ) : ℤ := max n 0 - (grown db p type old n - old)

theorem taken_whole (old : ℤ) {n : ℤ} (hn : ¬n ≤ 0) : taken old (.int n) = (old - got old n, .int (got old n)) := by
  unfold taken got
  rw [if_neg hn]
  simp only [Numeric.lt_iff, Numeric.value_int, Int.cast_lt, Numeric.int_sub_int, Numeric.toI_int]
  split
  · rename_i hlt
    rw [min_eq_left hlt.le, sub_self]
  · rename_i hle
    rw [min_eq_right (not_lt.mp hle)]

theorem given_whole (old maximum n : ℤ) : given old maximum (.int n) (.int n) =
    (min maximum (old + n), .int (n - (min maximum (old + n) - old))) := by
  unfold given
  simp only [Numeric.int_add_int, Numeric.int_sub_int, Numeric.le_iff, Numeric.value_int, Int.cast_le, Numeric.toI_int]
  split
  · rename_i hle
    rw [min_eq_left hle, sub_sub_eq_add_sub]
  · rename_i hlt
    rw [min_eq_right (not_le.mp hlt).le, add_sub_cancel_left, sub_self]
    rfl

variable {db : Db} {p : PlanetId} {h : Resource → ℤ}

/-- What is left of `old` and what is got when a number is taken; nothing changes for a negative one. -/
def takenOf (old : ℤ) (number : Numeric) : ℤ × Numeric := if number ≤ 0 then (old, 0) else taken old number

theorem takenOf_whole (old n : ℤ) : takenOf old (.int n) = (old - got old n, .int (got old n)) := by
  have hiff : Numeric.int n ≤ 0 ↔ n ≤ 0 := by simp [Numeric.le_iff]
  unfold takenOf
  split
  · rename_i hn
    rw [got, if_pos (hiff.mp hn), sub_zero]
    rfl
  · rename_i hn
    exact taken_whole old fun hle => hn (hiff.mpr hle)

/-- Taking a number leaves and returns what `takenOf` says. -/
theorem take_takenOf (hh : ∀ type, ¬db.CanHold p type → h type = 0) (type : Resource) (number : Numeric) :
    (take p type number).run (db.withHoldings p h) = .ok (takenOf (h type) number).2
      (db.withHoldings p (Function.update h type (takenOf (h type) number).1)) := by
  unfold take takenOf
  by_cases hn : number ≤ 0
  · rw [if_pos hn, if_pos hn, Function.update_eq_self]
    rfl
  have hnothing : h type = 0 → taken (h type) number = (h type, 0) := by
    intro hzero
    rw [hzero]
    exact if_pos (Numeric.not_le_iff.mp hn)
  have hstored : type ≠ .money → type ≠ .other →
      (db.withHoldings p h).setPlanet p (((db.withHoldings p h).planets p).setStock type
        (taken (((db.withHoldings p h).planets p).stock type) number).1) =
        db.withHoldings p (Function.update h type (taken (h type) number).1) ∧
      (taken (((db.withHoldings p h).planets p).stock type) number).2 = (taken (h type) number).2 := by
    intro hmoney hother
    have hstock : ((db.withHoldings p h).planets p).stock type = h type := by
      rw [Db.planets_withHoldings]
      cases type <;> first | rfl | contradiction
    rw [hstock]
    exact ⟨Db.setStock_withHoldings h hmoney hother _, rfl⟩
  rw [if_neg hn, if_neg hn, run_bind_get]
  cases type with
  | other =>
      rw [hnothing (hh .other id), Function.update_eq_self]
      rfl
  | money =>
      dsimp only
      rw [Db.user_withHoldings]
      cases huser : (db.planets p).user with
      | none =>
          rw [hnothing (hh .money (by simp [Db.CanHold, huser])), Function.update_eq_self]
          rfl
      | some u =>
          dsimp only
          rw [Db.money_withHoldings h huser, ← Db.setMoney_withHoldings h huser]
          rfl
  | ore =>
      obtain ⟨hafter, hback⟩ := hstored nofun nofun
      rw [← hafter, ← hback]
      rfl
  | crystal =>
      obtain ⟨hafter, hback⟩ := hstored nofun nofun
      rw [← hafter, ← hback]
      rfl
  | population =>
      obtain ⟨hafter, hback⟩ := hstored nofun nofun
      rw [← hafter, ← hback]
      rfl
  | energy =>
      obtain ⟨hafter, hback⟩ := hstored nofun nofun
      rw [← hafter, ← hback]
      rfl

/-- Taking a whole number lowers what there is by what is got. -/
theorem take_apply (hh : ∀ type, ¬db.CanHold p type → h type = 0) (type : Resource) (n : ℤ) :
    (take p type (.int n)).run (db.withHoldings p h) = .ok (.int (got (h type) n))
      (db.withHoldings p (Function.update h type (h type - got (h type) n))) := by
  rw [take_takenOf hh type, takenOf_whole]

variable (db p h) in
/-- Giving a whole number raises what there is, as far as it can be kept. -/
theorem give_apply (type : Resource) (n : ℤ) :
    (give p type (.int n)).run (db.withHoldings p h) = .ok (.int (back db p type (h type) n))
      (db.withHoldings p (Function.update h type (grown db p type (h type) n))) := by
  unfold give back
  by_cases hle : Numeric.int n ≤ 0
  · have hn : n ≤ 0 := by simpa [Numeric.le_iff] using hle
    have hsame : grown db p type (h type) n = h type := if_pos hn
    rw [if_pos hle, hsame, Function.update_eq_self, max_eq_right hn, sub_self, sub_zero]
    rfl
  have hpos : ¬n ≤ 0 := by simpa [Numeric.le_iff] using hle
  have hmax : max n 0 = n := max_eq_left (not_le.mp hpos).le
  have hstored : type ≠ .money → type ≠ .other →
      (db.withHoldings p h).setPlanet p (((db.withHoldings p h).planets p).setStock type
        (given (((db.withHoldings p h).planets p).stock type) (((db.withHoldings p h).planets p).maximum type)
          (.int n) (.int n)).1) =
        db.withHoldings p (Function.update h type (min ((db.planets p).maximum type) (h type + n))) ∧
      (given (((db.withHoldings p h).planets p).stock type) (((db.withHoldings p h).planets p).maximum type)
          (.int n) (.int n)).2 = .int (n - (min ((db.planets p).maximum type) (h type + n) - h type)) := by
    intro hmoney hother
    have hstock : ((db.withHoldings p h).planets p).stock type = h type := by
      rw [Db.planets_withHoldings]
      cases type <;> first | rfl | contradiction
    rw [hstock, Db.maximum_withHoldings, given_whole]
    exact ⟨Db.setStock_withHoldings h hmoney hother _, rfl⟩
  unfold grown
  rw [if_neg hle, run_bind_get, if_neg hpos, hmax]
  cases type with
  | other =>
      dsimp only
      rw [Function.update_eq_self, sub_self, sub_zero]
      rfl
  | money =>
      dsimp only
      rw [Db.user_withHoldings]
      cases huser : (db.planets p).user with
      | none =>
          rw [if_neg (by simp), Function.update_eq_self, sub_self, sub_zero]
          rfl
      | some u =>
          rw [if_pos (by simp), ← Db.setMoney_withHoldings h huser, ← Db.money_withHoldings h huser,
            add_sub_cancel_left, sub_self]
          rfl
  | ore =>
      obtain ⟨hafter, hback⟩ := hstored nofun nofun
      rw [← hafter, ← hback]
      rfl
  | crystal =>
      obtain ⟨hafter, hback⟩ := hstored nofun nofun
      rw [← hafter, ← hback]
      rfl
  | population =>
      obtain ⟨hafter, hback⟩ := hstored nofun nofun
      rw [← hafter, ← hback]
      rfl
  | energy =>
      obtain ⟨hafter, hback⟩ := hstored nofun nofun
      rw [← hafter, ← hback]
      rfl

end Planet

end Mmog

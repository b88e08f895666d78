import Mmog.Fights.Loot
import Mmog.Missions.Cargo
import Mmog.Ruby.Grid

/-!
# Loading

What a fleet loads is what its planet, or the owner of the planet, loses, as
long as no fraction is asked for.  A request that does not fit is replaced by a
third of the free room for each kind, whatever was requested of it.
-/

namespace Mmog

open Ruby Action Planet

namespace Planet

/-! ## Taking a float -/

theorem takenOf_zero (number : Numeric) : takenOf 0 number = (0, 0) := by
  unfold takenOf
  split
  · rfl
  · rename_i hpos
    exact if_pos (Numeric.not_le_iff.mp hpos)

/-- What is aboard after an amount came in. -/
def gain (aboard : ℤ) (back : Numeric) : ℤ := ((aboard : Numeric) + back).toI - aboard

theorem gain_int (aboard n : ℤ) : gain aboard (.int n) = n := by
  rw [gain, Numeric.int_add_int, Numeric.toI_int, add_sub_cancel_left]

section Taking

variable {aboard old request : ℤ} {part : ℚ}

/-- What a kind of cargo grows by is asked for, is there and is gone, and it is no more than a part. -/
structure Moved (aboard old request : ℤ) (part : ℚ) : Prop where
  nonneg : 0 ≤ gain aboard (takenOf old (.float part)).2
  requested : gain aboard (takenOf old (.float part)).2 ≤ request
  stored : gain aboard (takenOf old (.float part)).2 ≤ old
  gone : old - (takenOf old (.float part)).1 = gain aboard (takenOf old (.float part)).2
  part_le : (gain aboard (takenOf old (.float part)).2 : ℚ) ≤ part

theorem takenOf_of_lt (hold : 0 ≤ old) (hless : (old : ℚ) < part) :
    takenOf old (.float part) = (0, .int old) := by
  have hpos : ¬Numeric.float part ≤ 0 := by
    rw [Numeric.not_le_iff]
    exact (show (0 : ℚ) ≤ old from Int.cast_nonneg hold).trans_lt hless
  rw [takenOf, if_neg hpos]
  exact if_pos hless

theorem takenOf_of_le (hpos : 0 < part) (hle : part ≤ old) :
    takenOf old (.float part) = (((old : Numeric) - .float part).toI, .float part) := by
  have hpos : ¬Numeric.float part ≤ 0 := Numeric.not_le_iff.mpr hpos
  rw [takenOf, if_neg hpos]
  exact if_neg (not_lt.mpr hle)

/-- A whole part is taken and loaded without an error. -/
theorem takenOf_whole_float (hold : 0 ≤ old) (hbound : old < 2 ^ 53) (haboard : 0 ≤ aboard) {k : ℤ} (hk : 0 ≤ k)
    (hroom : aboard + k < 2 ^ 53) :
    gain aboard (takenOf old (.float k)).2 = min old k ∧ (takenOf old (.float k)).1 = old - min old k := by
  rcases hk.eq_or_lt with rfl | hpos
  · have hzero : takenOf old (.float ((0 : ℤ) : ℚ)) = (old, .int 0) := by
      rw [Int.cast_zero]
      exact if_pos (show (0 : ℚ) ≤ 0 from le_rfl)
    rw [hzero, gain_int, min_eq_right hold, sub_zero]
    exact ⟨rfl, rfl⟩
  rcases lt_or_ge old k with hless | hle
  · rw [takenOf_of_lt hold (Int.cast_lt.mpr hless), gain_int, min_eq_left hless.le, sub_self]
    exact ⟨rfl, rfl⟩
  · rw [takenOf_of_le (Int.cast_pos.mpr hpos) (Int.cast_le.mpr hle), min_eq_right hle]
    have hleft : ((old : Numeric) - .float k).value = (old - k : ℤ) := by
      rw [Numeric.value_sub_of_lt (k := k) rfl hk hle hbound]
      exact (Int.cast_sub old k).symm
    have hloaded : ((aboard : Numeric) + .float k).value = (aboard + k : ℤ) := by
      have haboard' : Binary64.round aboard = aboard :=
        Binary64.round_intCast (by rw [abs_of_nonneg haboard]; omega)
      calc ((aboard : Numeric) + .float k).value = Binary64.round (Binary64.round aboard + k) := rfl
        _ = Binary64.round ((aboard + k : ℤ) : ℚ) := by rw [haboard', Int.cast_add]
        _ = (aboard + k : ℤ) := Binary64.round_intCast (by rw [abs_of_nonneg] <;> omega)
    rw [gain, Numeric.toI_of_value hloaded, Numeric.toI_of_value hleft, add_sub_cancel_left]
    exact ⟨rfl, rfl⟩

/-- The stock is less than the part and no more than is requested, or the part is whole and no more than is
requested. -/
def PartFits (old request : ℤ) (part : ℚ) : Prop :=
  (old : ℚ) < part ∧ old ≤ request ∨ ∃ k : ℤ, part = k ∧ k ≤ request

theorem moved_of_fits (hold : 0 ≤ old) (hbound : old < 2 ^ 53) (haboard : 0 ≤ aboard) (hpart : 0 ≤ part)
    (hroom : aboard + part < 2 ^ 53) (hfits : PartFits old request part) : Moved aboard old request part := by
  rcases hfits with ⟨hless, hrequest⟩ | ⟨k, rfl, hrequest⟩
  · have htaken := takenOf_of_lt hold hless
    have hgain : gain aboard (takenOf old (.float part)).2 = old := by rw [htaken, gain_int]
    exact ⟨by rwa [hgain], by rwa [hgain], hgain.le, by rw [hgain, htaken, sub_zero], by rw [hgain]; exact hless.le⟩
  · have hk : 0 ≤ k := by exact_mod_cast hpart
    obtain ⟨hgain, hleft⟩ := takenOf_whole_float hold hbound haboard hk (by exact_mod_cast hroom)
    refine ⟨by rw [hgain]; omega, by rw [hgain]; omega, by rw [hgain]; omega, by rw [hgain, hleft]; omega, ?_⟩
    rw [hgain]
    exact Int.cast_le.mpr (min_le_right old k)

/-- A fraction that is not lost in the sums is lost on the way: the planet gives it up, and the fleet does not
get it. -/
theorem not_gone_of_fraction {gap : ℚ} (hold : (old : ℚ) < gap * 2 ^ 53) (haboard : 0 ≤ aboard)
    (hroom : aboard + part < gap * 2 ^ 53) (hpart : 0 < part) (hle : part ≤ old) (hlow : ⌊part⌋ + gap ≤ part)
    (hhigh : part + gap ≤ ⌊part⌋ + 1) :
    old - (takenOf old (.float part)).1 ≠ gain aboard (takenOf old (.float part)).2 := by
  have hgap : gap ≤ 1 / 2 := by linarith
  have hexact : ∀ n : ℤ, 0 ≤ n → (n : ℚ) < gap * 2 ^ 53 → Binary64.round n = n := by
    intro n hn hlt
    have hsmall : (n : ℚ) < 2 ^ 53 := by linarith
    exact Binary64.round_intCast (by rw [abs_of_nonneg hn]; exact_mod_cast hsmall)
  have hold' : (0 : ℚ) ≤ old := hpart.le.trans hle
  have haboard' : (0 : ℚ) ≤ aboard := Int.cast_nonneg haboard
  -- what is loaded loses the fraction
  have hsum : ⌊(aboard : ℚ) + part⌋ = aboard + ⌊part⌋ := Int.floor_intCast_add aboard part
  have hloaded : ⌊Binary64.round (aboard + part)⌋ = aboard + ⌊part⌋ := by
    rw [← hsum]
    refine Binary64.floor_round_of_far (by linarith) hroom ?_ ?_
    · rw [hsum]
      push_cast
      linarith
    · rw [hsum]
      push_cast
      linarith
  -- and so does what stays
  have hdiff : ⌊(old : ℚ) - part⌋ = old - ⌊part⌋ - 1 := by
    refine Int.floor_eq_iff.mpr ⟨?_, ?_⟩
    · push_cast
      linarith
    · push_cast
      linarith
  have hkept : ⌊Binary64.round (old - part)⌋ = old - ⌊part⌋ - 1 := by
    rw [← hdiff]
    refine Binary64.floor_round_of_far (by linarith) (show old - part < gap * 2 ^ 53 by linarith) ?_ ?_
    · rw [hdiff]
      push_cast
      linarith
    · rw [hdiff]
      push_cast
      linarith
  have hgain : gain aboard (.float part) = ⌊part⌋ := by
    have hvalue : (aboard : Numeric) + .float part = .float (Binary64.round (aboard + part)) := by
      change Numeric.float (Binary64.round (Binary64.round aboard + part)) = _
      rw [hexact aboard haboard (by linarith)]
    rw [gain, hvalue, Numeric.toI, if_pos (Binary64.round_nonneg (by linarith)), hloaded, add_sub_cancel_left]
  have hleft : ((old : Numeric) - .float part).toI = old - ⌊part⌋ - 1 := by
    have hvalue : (old : Numeric) - .float part = .float (Binary64.round (old - part)) := by
      change Numeric.float (Binary64.round (Binary64.round old - part)) = _
      rw [hexact old (by exact_mod_cast hold') hold]
    rw [hvalue, Numeric.toI, if_pos (Binary64.round_nonneg (by linarith)), hkept]
  rw [takenOf_of_le hpart hle, hgain, hleft]
  omega

/-- Where no fraction is lost in the sums, only what fits is moved without an error. -/
theorem fits_of_moved {gap : ℚ} (hold : 0 ≤ old) (hbound : (old : ℚ) < gap * 2 ^ 53) (haboard : 0 ≤ aboard)
    (hroom : aboard + part < gap * 2 ^ 53) (hpart : 0 ≤ part) (hrequest : 0 ≤ request)
    (hfar : (¬∃ k : ℤ, part = k) → ⌊part⌋ + gap ≤ part ∧ part + gap ≤ ⌊part⌋ + 1) (hgap : gap ≤ 1)
    (hasked : gain aboard (takenOf old (.float part)).2 ≤ request)
    (hgone : old - (takenOf old (.float part)).1 = gain aboard (takenOf old (.float part)).2) :
    PartFits old request part := by
  rcases hpart.eq_or_lt with rfl | hpos
  · exact .inr ⟨0, Int.cast_zero.symm, hrequest⟩
  rcases lt_or_ge (old : ℚ) part with hless | hle
  · rw [takenOf_of_lt hold hless, gain_int] at hasked
    exact .inl ⟨hless, hasked⟩
  by_cases hwhole : ∃ k : ℤ, part = k
  · obtain ⟨k, rfl⟩ := hwhole
    have hsmall : gap * 2 ^ 53 ≤ (2 : ℚ) ^ 53 := mul_le_of_le_one_left (by norm_num) hgap
    have hold53 : old < 2 ^ 53 := by exact_mod_cast hbound.trans_le hsmall
    have hroom53 : aboard + k < 2 ^ 53 := by exact_mod_cast hroom.trans_le hsmall
    rw [(takenOf_whole_float hold hold53 haboard (by exact_mod_cast hpart) hroom53).1,
      min_eq_right (by exact_mod_cast hle)] at hasked
    exact .inr ⟨k, rfl, hasked⟩
  · obtain ⟨hlow, hhigh⟩ := hfar hwhole
    exact absurd hgone (not_gone_of_fraction hbound haboard hroom hpos hle hlow hhigh)

end Taking

end Planet

namespace Fleet

section Loading

variable (db : Db) (p : PlanetId) (self : Fleet) (request : Cargo)

/-- What the planet or its owner keeps of a resource, and what the fleet gets of it. -/
def fetched (type : Resource) : ℤ × Numeric :=
  takenOf (db.holding p type) (self.wanted (request.ore + request.crystal + request.credit) (request.amount type))

/-- The cargo of a kind after loading. -/
def loadedAmount (type : Resource) : ℤ := ((self.amount type : Numeric) + (fetched db p self request type).2).toI

/-- What the planet and its owner have after the fleet loaded. -/
def keptHoldings : Resource → ℤ
  | .ore => (fetched db p self request .ore).1
  | .crystal => (fetched db p self request .crystal).1
  | .money => (fetched db p self request .money).1
  | type => db.holding p type

/-- The fleet with what it got. -/
def loaded : Fleet :=
  let amount := loadedAmount db p self request
  self.withCargo ⟨amount .ore, amount .crystal, amount .money⟩

/-- The state after the fleet loaded. -/
def loadedDb : Db :=
  (db.withHoldings p (keptHoldings db p self request)).setFleets
    (db.fleets.modify self.id fun row => { row with attributes := (loaded db p self request).toAttributes })

variable {request}

theorem loadRessources_apply (hrequest : 0 ≤ request.ore ∧ 0 ≤ request.crystal ∧ 0 ≤ request.credit) :
    (self.loadRessources request.ore request.crystal request.credit p).run db =
      .ok (loaded db p self request) (loadedDb db p self request) := by
  let h := db.holding p
  let h₁ := Function.update h .ore (fetched db p self request .ore).1
  let h₂ := Function.update h₁ .crystal (fetched db p self request .crystal).1
  let h₃ := Function.update h₂ .money (fetched db p self request .money).1
  have hlast : h₃ = keptHoldings db p self request := by
    funext type
    cases type <;> rfl
  have hstart : ∀ type, ¬db.CanHold p type → h type = 0 := fun type hnot => Db.holding_eq_zero hnot
  have hupdate : ∀ (h' : Resource → ℤ) (kind : Resource), (∀ type, ¬db.CanHold p type → h' type = 0) →
      ∀ type, ¬db.CanHold p type → Function.update h' kind (fetched db p self request kind).1 type = 0 := by
    intro h' kind hh' type hnot
    by_cases heq : type = kind
    · subst heq
      rw [Function.update_self, fetched, show db.holding p type = 0 from hstart type hnot, takenOf_zero]
    · rw [Function.update_of_ne heq, hh' type hnot]
  have hore := take_takenOf hstart .ore (self.wanted (request.ore + request.crystal + request.credit) request.ore)
  have hcrystal := take_takenOf (hupdate h .ore hstart) .crystal
    (self.wanted (request.ore + request.crystal + request.credit) request.crystal)
  have hmoney := take_takenOf (hupdate h₁ .crystal (hupdate h .ore hstart)) .money
    (self.wanted (request.ore + request.crystal + request.credit) request.credit)
  rw [show db.withHoldings p h = db from db.withHoldings_holding p] at hore
  rw [loadRessources, if_neg (by omega)]
  refine (run_bind_of_ok hore _).trans ((run_bind_of_ok hcrystal _).trans ((run_bind_of_ok hmoney _).trans ?_))
  change EStateM.Result.ok _ ((db.withHoldings p h₃).setFleets _) = _
  rw [hlast]
  rfl

variable {db p self}

theorem amount_loaded {type : Resource} (htype : Loadable type) :
    (loaded db p self request).amount type - self.amount type =
      gain (self.amount type) (fetched db p self request type).2 := by
  rcases htype with rfl | rfl | rfl <;> rfl

theorem holding_loadedDb {type : Resource} (htype : Loadable type) {u : UserId} (huser : (db.planets p).user = some u) :
    (loadedDb db p self request).holding p type = (fetched db p self request type).1 := by
  have hhold : db.CanHold p type := by
    rcases htype with rfl | rfl | rfl
    · trivial
    · trivial
    · exact Option.isSome_iff_exists.mpr ⟨u, huser⟩
  have hholding := Db.holding_withHoldings_of_canHold (keptHoldings db p self request) hhold
  refine hholding.trans ?_
  rcases htype with rfl | rfl | rfl <;> rfl

/-! ## The free room -/

/-- The cargo fits into the fleet, and the room is one of whole numbers of binary64. -/
structure Laden (fleet : Fleet) : Prop where
  nonneg : ∀ type, 0 ≤ fleet.amount type
  within : (fleet.getAmountOfRessources : ℚ) ≤ fleet.getCapacity.value
  bound : fleet.getCapacity.value < 2 ^ 53

/-- What there is room for. -/
def room (self : Fleet) : ℚ := self.getCapacity.value - self.getAmountOfRessources

theorem getAmountOfRessources_eq (self : Fleet) :
    self.getAmountOfRessources = self.amount .ore + self.amount .money + self.amount .crystal := rfl

namespace Laden

variable (hladen : self.Laden)

include hladen

theorem amount_nonneg : 0 ≤ self.getAmountOfRessources := by
  have hore := hladen.nonneg .ore
  have hcrystal := hladen.nonneg .crystal
  have hmoney := hladen.nonneg .money
  rw [getAmountOfRessources_eq]
  omega

theorem amount_le {type : Resource} (htype : Loadable type) : self.amount type ≤ self.getAmountOfRessources := by
  have hore := hladen.nonneg .ore
  have hcrystal := hladen.nonneg .crystal
  have hmoney := hladen.nonneg .money
  rw [getAmountOfRessources_eq]
  rcases htype with rfl | rfl | rfl <;> omega

theorem room_nonneg : 0 ≤ self.room := sub_nonneg.mpr hladen.within

theorem room_lt : self.room < 2 ^ 53 :=
  (sub_le_self _ (Int.cast_nonneg hladen.amount_nonneg)).trans_lt hladen.bound

/-- The room is computed without an error. -/
theorem getFreeCapacity_eq : Binary64.round self.room = self.room ∧ self.getFreeCapacity = .float self.room := by
  have hcapacity : self.getCapacity = .float self.getCapacity.value := rfl
  have hrounded : Binary64.round self.getCapacity.value = self.getCapacity.value := Binary64.round_round _
  have hamount : Binary64.round self.getAmountOfRessources = self.getAmountOfRessources := by
    have hlt : (self.getAmountOfRessources : ℚ) < 2 ^ 53 := hladen.within.trans_lt hladen.bound
    refine Binary64.round_intCast ?_
    rw [abs_of_nonneg hladen.amount_nonneg]
    exact_mod_cast hlt
  have hround : Binary64.round self.room = self.room :=
    Binary64.round_sub_intCast hrounded hladen.bound hladen.amount_nonneg hladen.within
  have hcap : self.getCapacity - (self.getAmountOfRessources : Numeric) = .float self.room := by
    rw [hcapacity]
    change Numeric.float (Binary64.round (self.getCapacity.value - Binary64.round self.getAmountOfRessources)) = _
    rw [hamount]
    exact congrArg Numeric.float hround
  refine ⟨hround, ?_⟩
  rw [getFreeCapacity, hcap]
  exact if_neg (not_lt.mpr hladen.room_nonneg)

/-- A third of the room. -/
theorem third_eq : self.getFreeCapacity / 3 = .float (Binary64.round (self.room / 3)) := by
  have hthree : Binary64.round (3 : ℤ) = (3 : ℤ) := Binary64.round_intCast (by norm_num)
  rw [hladen.getFreeCapacity_eq.2]
  change Numeric.float (Binary64.round (self.room / Binary64.round (3 : ℤ))) = _
  rw [hthree, Int.cast_ofNat]

end Laden

/-! ## What was asked for -/

/-- What comes aboard of each kind is asked for, is there and is gone, and all of it fits in. -/
structure Transfers (db next : Db) (p : PlanetId) (before after : Fleet) (request : Cargo) : Prop where
  moved : ∀ type, Loadable type → 0 ≤ after.amount type - before.amount type ∧
    after.amount type - before.amount type ≤ request.amount type ∧
    after.amount type - before.amount type ≤ db.holding p type ∧
    db.holding p type - next.holding p type = after.amount type - before.amount type
  within : (after.getAmountOfRessources : ℚ) ≤ before.getCapacity.value

/-- The request fits in, or a third of the free room does for every kind. -/
def RequestFits (db : Db) (p : PlanetId) (self : Fleet) (request : Cargo) : Prop :=
  ¬self.getFreeCapacity < ((request.ore + request.crystal + request.credit : ℤ) : Numeric) ∨
    ∀ type, Loadable type →
      PartFits (db.holding p type) (request.amount type) (self.getFreeCapacity / 3).value

variable {u : UserId} (huser : (db.planets p).user = some u) (hladen : self.Laden)

include huser

/-- Whatever comes aboard of each kind is all that there is to prove. -/
theorem transfers_of_fetched
    (hmoved : ∀ type, Loadable type → 0 ≤ gain (self.amount type) (fetched db p self request type).2 ∧
      gain (self.amount type) (fetched db p self request type).2 ≤ request.amount type ∧
      gain (self.amount type) (fetched db p self request type).2 ≤ db.holding p type ∧
      db.holding p type - (fetched db p self request type).1 =
        gain (self.amount type) (fetched db p self request type).2)
    (hroom : ((gain (self.amount .ore) (fetched db p self request .ore).2 +
      gain (self.amount .crystal) (fetched db p self request .crystal).2 +
      gain (self.amount .money) (fetched db p self request .money).2 : ℤ) : ℚ) ≤ self.room) :
    Transfers db (loadedDb db p self request) p self (loaded db p self request) request := by
  constructor
  · intro type htype
    rw [amount_loaded htype, holding_loadedDb htype huser]
    exact hmoved type htype
  · have htotal : (loaded db p self request).getAmountOfRessources = self.getAmountOfRessources +
        (gain (self.amount .ore) (fetched db p self request .ore).2 +
          gain (self.amount .crystal) (fetched db p self request .crystal).2 +
          gain (self.amount .money) (fetched db p self request .money).2) := by
      rw [← amount_loaded (.inl rfl), ← amount_loaded (.inr (.inl rfl)), ← amount_loaded (.inr (.inr rfl)),
        getAmountOfRessources_eq, getAmountOfRessources_eq]
      ring
    rw [htotal, Int.cast_add]
    unfold room at hroom
    linarith

include hladen

theorem transfers_of_room (hrequest : ∀ type, 0 ≤ request.amount type)
    (hstock : ∀ type, Loadable type → 0 ≤ db.holding p type)
    (hfits : ¬self.getFreeCapacity < ((request.ore + request.crystal + request.credit : ℤ) : Numeric)) :
    Transfers db (loadedDb db p self request) p self (loaded db p self request) request := by
  have hfetched : ∀ type, Loadable type →
      fetched db p self request type = (db.holding p type - got (db.holding p type) (request.amount type),
        .int (got (db.holding p type) (request.amount type))) := by
    intro type _
    rw [fetched, wanted, if_neg hfits, takenOf_whole]
  have hbounds : ∀ type, Loadable type → _ := fun type htype => Fight.got_bounds (hstock type htype) (hrequest type)
  refine transfers_of_fetched huser (fun type htype => ?_) ?_
  · obtain ⟨hnonneg, hold, hle⟩ := hbounds type htype
    rw [hfetched type htype, gain_int, sub_sub_cancel]
    exact ⟨hnonneg, hle, hold, rfl⟩
  · have hore := (hbounds .ore (.inl rfl)).2.2
    have hcrystal := (hbounds .crystal (.inr (.inl rfl))).2.2
    have hmoney := (hbounds .money (.inr (.inr rfl))).2.2
    rw [hfetched _ (.inl rfl), hfetched _ (.inr (.inl rfl)), hfetched _ (.inr (.inr rfl)), gain_int, gain_int, gain_int]
    rw [Numeric.not_lt_iff, hladen.getFreeCapacity_eq.2, Numeric.le_iff] at hfits
    refine le_trans ?_ hfits
    exact Int.cast_le.mpr (add_le_add (add_le_add hore hcrystal) hmoney)

theorem transfers_of_part
    (hstock : ∀ type, Loadable type → 0 ≤ db.holding p type ∧ db.holding p type < 2 ^ 53)
    (hfull : self.getFreeCapacity < ((request.ore + request.crystal + request.credit : ℤ) : Numeric))
    (hparts : ∀ type, Loadable type →
      PartFits (db.holding p type) (request.amount type) (self.getFreeCapacity / 3).value) :
    Transfers db (loadedDb db p self request) p self (loaded db p self request) request := by
  let part := Binary64.round (self.room / 3)
  have hfetched : ∀ type, fetched db p self request type = takenOf (db.holding p type) (.float part) := by
    intro type
    rw [fetched, wanted, if_pos hfull, hladen.third_eq]
  have hround := hladen.getFreeCapacity_eq.1
  have hthird : 0 ≤ self.room / 3 := div_nonneg hladen.room_nonneg zero_le_three
  have hpart : 0 ≤ part := Binary64.round_nonneg hthird
  have hpart_le : part ≤ self.room :=
    (Binary64.round_mono (div_le_self hladen.room_nonneg (by norm_num))).trans_eq hround
  have hmoved : ∀ type, Loadable type → Moved (self.amount type) (db.holding p type) (request.amount type) part := by
    intro type htype
    have hfits := hparts type htype
    rw [hladen.third_eq] at hfits
    refine moved_of_fits (hstock type htype).1 (hstock type htype).2 (hladen.nonneg type) hpart ?_ hfits
    have hcast : (self.amount type : ℚ) ≤ self.getAmountOfRessources := Int.cast_le.mpr (hladen.amount_le htype)
    have hbound := hladen.bound
    unfold room at hpart_le
    linarith
  refine transfers_of_fetched huser (fun type htype => ?_) ?_
  · rw [hfetched]
    exact ⟨(hmoved type htype).nonneg, (hmoved type htype).requested, (hmoved type htype).stored,
      (hmoved type htype).gone⟩
  · have hgain : ∀ type, Loadable type →
        3 * (gain (self.amount type) (fetched db p self request type).2 : ℚ) ≤ self.room := by
      intro type htype
      rw [hfetched]
      exact Binary64.three_mul_le_of_le_round_third hround hladen.room_nonneg hladen.room_lt (hmoved type htype).part_le
    have hore := hgain .ore (.inl rfl)
    have hcrystal := hgain .crystal (.inr (.inl rfl))
    have hmoney := hgain .money (.inr (.inr rfl))
    push_cast
    linarith

/-- The amounts are small, and the capacity is one of the storage factors that research leads to, which are
fractions of 64. -/
structure Coarse (db : Db) (p : PlanetId) (fleet : Fleet) : Prop where
  fraction : ∃ j : ℤ, fleet.getCapacity.value = j / 64
  capacity : fleet.getCapacity.value < 2 ^ 40
  stock : ∀ type, Loadable type → db.holding p type < 2 ^ 40

/-- Where no fraction can be lost in the sums, loading goes wrong unless the parts fit. -/
theorem fits_of_transfers (hrequest : ∀ type, 0 ≤ request.amount type)
    (hstock : ∀ type, Loadable type → 0 ≤ db.holding p type) (hcoarse : Coarse db p self)
    (hfull : self.getFreeCapacity < ((request.ore + request.crystal + request.credit : ℤ) : Numeric))
    (htransfers : Transfers db (loadedDb db p self request) p self (loaded db p self request) request)
    {type : Resource} (htype : Loadable type) :
    PartFits (db.holding p type) (request.amount type) (self.getFreeCapacity / 3).value := by
  obtain ⟨j, hj⟩ := hcoarse.fraction
  have hcapacity := hcoarse.capacity
  have hroom : self.room / 3 = ((j - 64 * self.getAmountOfRessources : ℤ) : ℚ) / (192 : ℤ) := by
    rw [room, hj]
    push_cast
    ring
  have hthird : 0 ≤ self.room / 3 := div_nonneg hladen.room_nonneg zero_le_three
  have hpart : Binary64.round (self.room / 3) ≤ self.room :=
    (Binary64.round_mono (div_le_self hladen.room_nonneg (by norm_num))).trans_eq hladen.getFreeCapacity_eq.1
  have haboard : self.amount type + self.room ≤ self.getCapacity.value := by
    have hle : (self.amount type : ℚ) ≤ self.getAmountOfRessources := Int.cast_le.mpr (hladen.amount_le htype)
    unfold room
    linarith
  obtain ⟨-, hasked, -, hgone⟩ := htransfers.moved type htype
  rw [holding_loadedDb htype huser, amount_loaded htype, fetched, wanted, if_pos hfull, hladen.third_eq] at hgone
  rw [amount_loaded htype, fetched, wanted, if_pos hfull, hladen.third_eq] at hasked
  rw [hladen.third_eq, Numeric.value_float]
  have hgap : (2 : ℚ) ^ 40 ≤ 1 / 384 * 2 ^ 53 := by norm_num
  have hstock' : (db.holding p type : ℚ) < 2 ^ 40 := by exact_mod_cast hcoarse.stock type htype
  refine fits_of_moved (hstock type htype) (hstock'.trans_le hgap) (hladen.nonneg type) (by linarith)
    (Binary64.round_nonneg hthird) (hrequest type) (fun hfraction => ?_) (by norm_num) hasked hgone
  have hunits : 0 ≤ j - 64 * self.getAmountOfRessources := by
    have hpos : (0 : ℚ) ≤ ((j - 64 * self.getAmountOfRessources : ℤ) : ℚ) / (192 : ℤ) := hroom ▸ hthird
    have hnum := mul_nonneg hpos (by norm_num : (0 : ℚ) ≤ (192 : ℤ))
    rw [div_mul_cancel₀ _ (by norm_num)] at hnum
    exact_mod_cast hnum
  have hsmall : self.room ≤ self.getCapacity.value := sub_le_self _ (Int.cast_nonneg hladen.amount_nonneg)
  rw [hroom] at hfraction ⊢
  have hfar := Binary64.far_of_fraction (by norm_num) hunits (by rw [← hroom]; norm_num; linarith) hfraction
  norm_num at hfar ⊢
  exact hfar

end Loading

/-- Loading takes what was asked for and no more, if the request or the parts fit in, and where no fraction can be
lost in the sums, only then. -/
theorem loading_takes_iff (db : Db) (p : PlanetId) (self : Fleet) (request : Cargo) {u : UserId}
    (huser : (db.planets p).user = some u) (hladen : self.Laden) (hrequest : ∀ type, 0 ≤ request.amount type)
    (hstock : ∀ type, Loadable type → 0 ≤ db.holding p type ∧ db.holding p type < 2 ^ 53) :
    ∃ loaded next, (self.loadRessources request.ore request.crystal request.credit p).run db = .ok loaded next ∧
      (∀ row, db.fleets.get self.id = some row →
        next.fleets.get self.id = some ⟨loaded.toAttributes, row.shipfleets⟩) ∧
      (RequestFits db p self request → Transfers db next p self loaded request) ∧
      (Coarse db p self → Transfers db next p self loaded request → RequestFits db p self request) := by
  have hnonneg : ∀ type, Loadable type → 0 ≤ db.holding p type := fun type htype => (hstock type htype).1
  refine ⟨_, _, loadRessources_apply db p self ⟨hrequest .ore, hrequest .crystal, hrequest .money⟩,
    fun row hget => Table.get_modify_self _ hget, ?_, fun hcoarse htransfers => ?_⟩
  · rintro (hroom | hparts)
    · exact transfers_of_room huser hladen hrequest hnonneg hroom
    · by_cases hfull : self.getFreeCapacity < ((request.ore + request.crystal + request.credit : ℤ) : Numeric)
      · exact transfers_of_part huser hladen hstock hfull hparts
      · exact transfers_of_room huser hladen hrequest hnonneg hfull
  · by_cases hfull : self.getFreeCapacity < ((request.ore + request.crystal + request.credit : ℤ) : Numeric)
    · exact .inr fun type htype => fits_of_transfers huser hladen hrequest hnonneg hcoarse hfull htransfers htype
    · exact .inl hfull

/-- A fleet of user 1 with room for 10 units. -/
def carrier : Fleet := Seeds.scout

theorem carrier_laden : carrier.Laden where
  nonneg type := by cases type <;> decide
  within := by decide +kernel
  bound := by decide +kernel

theorem loading_takes_iff_carrier : ∃ loaded next, (carrier.loadRessources 3 3 3 1).run Seeds.start = .ok loaded next ∧
    Transfers Seeds.start next 1 carrier loaded ⟨3, 3, 3⟩ := by
  have hstock : ∀ type, Loadable type →
      0 ≤ Seeds.start.holding 1 type ∧ Seeds.start.holding 1 type < 2 ^ 53 := by
    rintro type (rfl | rfl | rfl) <;> decide
  obtain ⟨loaded, next, hrun, -, hfits, -⟩ := loading_takes_iff Seeds.start 1 carrier ⟨3, 3, 3⟩ rfl carrier_laden
    (fun type => by cases type <;> decide) hstock
  exact ⟨loaded, next, hrun, hfits (.inl (by decide +kernel))⟩

/-- Only credit is requested, more than there is room for, but three units of each kind come aboard. -/
theorem loading_takes_more :
    ¬∀ (db : Db) (p : PlanetId) (self : Fleet) (request : Cargo) (u : UserId), (db.planets p).user = some u →
      self.Laden → (∀ type, 0 ≤ request.amount type) →
        (∀ type, Loadable type → 0 ≤ db.holding p type ∧ db.holding p type < 2 ^ 53) →
          ∀ loaded next, (self.loadRessources request.ore request.crystal request.credit p).run db = .ok loaded next →
            Transfers db next p self loaded request := by
  intro hall
  have hstock : ∀ type, Loadable type →
      0 ≤ Seeds.start.holding 1 type ∧ Seeds.start.holding 1 type < 2 ^ 53 := by
    rintro type (rfl | rfl | rfl) <;> decide
  have htransfers := hall Seeds.start 1 carrier ⟨0, 0, 11⟩ 1 rfl carrier_laden (fun type => by cases type <;> decide)
    hstock _ _ (loadRessources_apply Seeds.start 1 carrier (by decide))
  have hore := (htransfers.moved .ore (.inl rfl)).2.1
  exact absurd hore (by decide +kernel)

end Fleet

end Mmog

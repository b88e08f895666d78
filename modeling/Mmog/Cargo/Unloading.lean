import Mmog.Game.Holdings
import Mmog.Missions.Cargo
import Mmog.Model.Seeds

/-!
# Unloading

What a fleet unloads is what its planet, or the owner of the planet, gets; what
stays aboard has no room or no owner.
-/

namespace Mmog

open Ruby Action Planet

namespace Planet

/-! ## Giving twice -/

section Giving

variable {db : Db} {p : PlanetId} {type : Resource} {old n : ℤ}

/-- The stock has reached its maximum, or it is the money of nobody. -/
def Full (db : Db) (p : PlanetId) (type : Resource) (old : ℤ) : Prop :=
  match type with
  | .money => (db.planets p).user = none
  | type => old = (db.planets p).maximum type

variable (db p) in
/-- A stock is filled up at most, an owner's money grows, and that of nobody does not. -/
theorem grown_cases (htype : Loadable type) :
    (type ≠ .money ∧ ∀ old n, 0 ≤ n → old ≤ (db.planets p).maximum type →
        grown db p type old n = min ((db.planets p).maximum type) (old + n)) ∨
      (type = .money ∧ ∀ old n, 0 ≤ n → grown db p type old n = old + n) ∨
      (type = .money ∧ (db.planets p).user = none ∧ ∀ old n, grown db p type old n = old) := by
  have hstock : ∀ maximum old n : ℤ, 0 ≤ n → old ≤ maximum →
      (if n ≤ 0 then old else min maximum (old + n)) = min maximum (old + n) := by
    intro maximum old n hn hold
    split <;> omega
  rcases htype with rfl | rfl | rfl
  · exact .inl ⟨nofun, fun old n => hstock _ old n⟩
  · exact .inl ⟨nofun, fun old n => hstock _ old n⟩
  · unfold grown
    cases (db.planets p).user with
    | none =>
        refine .inr (.inr ⟨rfl, rfl, fun old n => ?_⟩)
        exact ite_self old
    | some u =>
        refine .inr (.inl ⟨rfl, fun old n hn => ?_⟩)
        dsimp only [Option.isSome_some]
        split
        · rw [show n = 0 by omega, add_zero]
        · rfl

variable (hold : type ≠ .money → old ≤ (db.planets p).maximum type)

include hold

/-- The stock grows by at most what is given, and by less only if it is full then. -/
theorem grown_bounds (htype : Loadable type) (hn : 0 ≤ n) :
    old ≤ grown db p type old n ∧ grown db p type old n ≤ old + n ∧
      (type ≠ .money → grown db p type old n ≤ (db.planets p).maximum type) ∧
      (grown db p type old n < old + n → Full db p type (grown db p type old n)) := by
  obtain ⟨hmoney, hgrown⟩ | ⟨rfl, hgrown⟩ | ⟨rfl, huser, hgrown⟩ := grown_cases db p htype
  · have hmax := hold hmoney
    have hfull : Full db p type (grown db p type old n) ↔
        grown db p type old n = (db.planets p).maximum type := by
      unfold Full
      cases type <;> first | rfl | contradiction
    rw [hfull, hgrown old n hn hmax]
    omega
  · rw [hgrown old n hn]
    exact ⟨by omega, le_rfl, fun h => absurd rfl h, fun hlt => absurd hlt (lt_irrefl _)⟩
  · rw [hgrown]
    exact ⟨le_rfl, by omega, fun h => absurd rfl h, fun _ => huser⟩

/-- What came back comes back again. -/
theorem back_back (htype : Loadable type) (hn : 0 ≤ n) :
    grown db p type (grown db p type old n) (back db p type old n) = grown db p type old n ∧
      back db p type (grown db p type old n) (back db p type old n) = back db p type old n := by
  obtain ⟨hge, hle, hmax, -⟩ := grown_bounds hold htype hn
  have hback : back db p type old n = n - (grown db p type old n - old) := by rw [back, max_eq_left hn]
  have hrest : 0 ≤ back db p type old n := by omega
  have hsame : grown db p type (grown db p type old n) (back db p type old n) = grown db p type old n := by
    obtain ⟨hmoney, hgrown⟩ | ⟨rfl, hgrown⟩ | ⟨rfl, huser, hgrown⟩ := grown_cases db p htype
    · have hfirst := hgrown old n hn (hold hmoney)
      rw [hgrown _ _ hrest (hmax hmoney)]
      omega
    · have hfirst := hgrown old n hn
      rw [hgrown _ _ hrest]
      omega
    · rw [hgrown]
  refine ⟨hsame, ?_⟩
  rw [back, hsame, sub_self, sub_zero, max_eq_left hrest]

end Giving

end Planet

namespace Fleet

/-! ## Unloading -/

section Unloading

variable (db : Db) (p : PlanetId) (self : Fleet)

/-- What the planet and its owner have after the fleet unloaded. -/
def delivered (type : Resource) : ℤ := grown db p type (db.holding p type) (self.amount type)

/-- The fleet with what did not find room. -/
def unloaded : Fleet :=
  let rest (type : Resource) := back db p type (db.holding p type) (self.amount type)
  self.withCargo ⟨rest .ore, rest .crystal, rest .money⟩

/-- The state after the fleet unloaded. -/
def unloadedDb : Db :=
  (db.withHoldings p (delivered db p self)).setFleets
    (db.fleets.modify self.id fun row => { row with attributes := (unloaded db p self).toAttributes })

theorem unloadRessources_apply : (self.unloadRessources p).run db = .ok (unloaded db p self) (unloadedDb db p self) := by
  let h := db.holding p
  let h₁ := Function.update h .ore (delivered db p self .ore)
  let h₂ := Function.update h₁ .crystal (delivered db p self .crystal)
  let h₃ := Function.update h₂ .money (delivered db p self .money)
  have hnone : ∀ type, self.amount type = 0 → delivered db p self type = h type := fun type hzero => by
    rw [delivered, hzero]
    exact if_pos le_rfl
  have hlast : h₃ = delivered db p self := by
    funext type
    cases type with
    | ore | crystal | money => rfl
    | population => exact (hnone .population rfl).symm
    | energy => exact (hnone .energy rfl).symm
    | other => exact (hnone .other rfl).symm
  have hore := give_apply db p h .ore self.ore
  rw [show db.withHoldings p h = db from db.withHoldings_holding p] at hore
  have hcrystal := give_apply db p h₁ .crystal self.crystal
  have hmoney := give_apply db p h₂ .money self.credit
  rw [unloadRessources]
  refine (run_bind_of_ok hore _).trans ((run_bind_of_ok hcrystal _).trans ((run_bind_of_ok hmoney _).trans ?_))
  change EStateM.Result.ok _ ((db.withHoldings p h₃).setFleets _) = _
  rw [hlast]
  rfl

variable {db p self}

theorem amount_unloaded {type : Resource} (htype : Loadable type) :
    (unloaded db p self).amount type = back db p type (db.holding p type) (self.amount type) := by
  rcases htype with rfl | rfl | rfl <;> rfl

theorem holding_unloadedDb (type : Resource) : (unloadedDb db p self).holding p type = delivered db p self type := by
  have hnone : ∀ type, ¬db.CanHold p type → delivered db p self type = 0 := by
    intro type hnot
    have hzero := Db.holding_eq_zero hnot
    rw [delivered, hzero]
    cases type with
    | money =>
        have huser : (db.planets p).user = none := Option.not_isSome_iff_eq_none.mp hnot
        unfold grown
        rw [huser]
        exact ite_self 0
    | other => exact if_pos le_rfl
    | ore | crystal | population | energy => exact absurd trivial hnot
  exact Db.holding_withHoldings (delivered db p self) hnone type

theorem maximum_unloadedDb (type : Resource) :
    ((unloadedDb db p self).planets p).maximum type = (db.planets p).maximum type :=
  Db.maximum_withHoldings (delivered db p self) type

theorem user_unloadedDb : ((unloadedDb db p self).planets p).user = (db.planets p).user :=
  Db.user_withHoldings (delivered db p self)

theorem grown_unloadedDb : grown (unloadedDb db p self) p = grown db p := by
  funext type old n
  unfold grown
  rw [user_unloadedDb]
  cases type <;> simp only [maximum_unloadedDb]

theorem back_unloadedDb : back (unloadedDb db p self) p = back db p := by
  funext type old n
  rw [back, grown_unloadedDb, back]

/-- A second time everything that is aboard comes back, and nothing changes. -/
theorem unloadRessources_again (hcargo : ∀ type, 0 ≤ self.amount type)
    (hstock : ∀ type, Loadable type → type ≠ .money → db.holding p type ≤ (db.planets p).maximum type) :
    ((unloaded db p self).unloadRessources p).run (unloadedDb db p self) =
      .ok (unloaded db p self) (unloadedDb db p self) := by
  have hback : ∀ type, Loadable type →
      grown db p type (delivered db p self type) ((unloaded db p self).amount type) = delivered db p self type ∧
        back (unloadedDb db p self) p type (delivered db p self type) ((unloaded db p self).amount type) =
          (unloaded db p self).amount type := by
    intro type htype
    rw [amount_unloaded htype, back_unloadedDb]
    exact back_back (hstock type htype) htype (hcargo type)
  have hsame : unloaded (unloadedDb db p self) p (unloaded db p self) = unloaded db p self := by
    have hrest : ∀ type, Loadable type → back (unloadedDb db p self) p type ((unloadedDb db p self).holding p type)
        ((unloaded db p self).amount type) = (unloaded db p self).amount type := by
      intro type htype
      rw [holding_unloadedDb]
      exact (hback type htype).2
    have hore := hrest .ore (.inl rfl)
    have hcrystal := hrest .crystal (.inr (.inl rfl))
    have hmoney := hrest .money (.inr (.inr rfl))
    refine (congrArg (unloaded db p self).withCargo (?_ : _ = (unloaded db p self).toCargo)).trans rfl
    dsimp only
    rw [hore, hcrystal, hmoney]
    rfl
  have hholding : delivered (unloadedDb db p self) p (unloaded db p self) = (unloadedDb db p self).holding p := by
    funext type
    rw [delivered, holding_unloadedDb, grown_unloadedDb]
    cases type with
    | ore => exact (hback .ore (.inl rfl)).1
    | crystal => exact (hback .crystal (.inr (.inl rfl))).1
    | money => exact (hback .money (.inr (.inr rfl))).1
    | population | energy | other => exact if_pos le_rfl
  rw [unloadRessources_apply, hsame]
  have hdb : unloadedDb (unloadedDb db p self) p (unloaded db p self) = unloadedDb db p self := by
    rw [unloadedDb, hholding, Db.withHoldings_holding, hsame]
    exact congrArg (db.withHoldings p (delivered db p self)).setFleets (Table.modify_modify db.fleets self.id _ _)
  rw [hdb]

/-- Unloading moves cargo to the planet and its owner as far as there is room and an owner, and doing it
once more changes nothing. -/
theorem unloading_conserves (db : Db) (p : PlanetId) (self : Fleet) (hcargo : ∀ type, 0 ≤ self.amount type)
    (hstock : ∀ type, Loadable type → type ≠ .money →
      (db.planets p).stock type ≤ (db.planets p).maximum type) :
    ∃ unloaded next, (self.unloadRessources p).run db = .ok unloaded next ∧
      (∀ type, Loadable type →
        unloaded.amount type + next.holding p type = self.amount type + db.holding p type ∧
        (0 ≤ unloaded.amount type ∧ unloaded.amount type ≤ self.amount type) ∧
        (type ≠ .money → next.holding p type ≤ (db.planets p).maximum type) ∧
        (0 < unloaded.amount type → Full db p type (next.holding p type))) ∧
      (∀ row, db.fleets.get self.id = some row →
        next.fleets.get self.id = some ⟨unloaded.toAttributes, row.shipfleets⟩) ∧
      (unloaded.unloadRessources p).run next = .ok unloaded next := by
  have hholding : ∀ type, Loadable type → type ≠ .money → db.holding p type ≤ (db.planets p).maximum type := by
    rintro type (rfl | rfl | rfl) hmoney
    · exact hstock .ore (.inl rfl) nofun
    · exact hstock .crystal (.inr (.inl rfl)) nofun
    · exact absurd rfl hmoney
  refine ⟨_, _, unloadRessources_apply db p self, fun type htype => ?_, fun row hget => ?_,
    unloadRessources_again hcargo hholding⟩
  · obtain ⟨hge, hle, hmax, hfull⟩ := grown_bounds (hholding type htype) htype (hcargo type)
    have hback : (Fleet.unloaded db p self).amount type =
        self.amount type - (delivered db p self type - db.holding p type) := by
      rw [amount_unloaded htype, back, max_eq_left (hcargo type), delivered]
    rw [holding_unloadedDb, hback]
    unfold delivered
    refine ⟨by omega, ⟨by omega, by omega⟩, hmax, fun hpos => hfull (by omega)⟩
  · exact Table.get_modify_self _ hget

/-- A fleet with ore, crystal and credit. -/
def freighter : Fleet := { Seeds.scout with ore := 100, crystal := 5, credit := 7 }

theorem unloading_conserves_sample : ∃ unloaded next, (freighter.unloadRessources 5).run Seeds.start = .ok unloaded next ∧
    unloaded.amount .money + next.holding 5 .money = 7 ∧
      (unloaded.unloadRessources 5).run next = .ok unloaded next := by
  have hstock : ∀ type, Loadable type → type ≠ .money →
      (Seeds.start.planets 5).stock type ≤ (Seeds.start.planets 5).maximum type := by
    rintro type (rfl | rfl | rfl) hmoney
    · decide
    · decide
    · exact absurd rfl hmoney
  obtain ⟨unloaded, next, hrun, hkinds, -, hagain⟩ := unloading_conserves Seeds.start 5 freighter
    (fun type => by cases type <;> decide) hstock
  exact ⟨unloaded, next, hrun, (hkinds .money (.inr (.inr rfl))).1, hagain⟩

end Unloading

end Fleet

end Mmog

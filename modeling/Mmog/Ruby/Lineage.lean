import Mmog.Ruby.Table

/-!
# Where rows come from

Every row of a later table is an earlier row that changed as it may, or a row
that was created since.  Ids are not given twice, so this composes along a run.
A table that had a row of some kind still has one if only others are destroyed.
-/

namespace Mmog.Ruby.Table

variable {ρ : Type*} {changes : ℕ → ρ → ρ → Prop} {starts : ρ → Prop} {s t u : Table ρ} {id : ℕ} {row : ρ}

/-- The rows of the second table are rows of the first that changed, or new ones that started. -/
structure Descends (changes : ℕ → ρ → ρ → Prop) (starts : ρ → Prop) (t u : Table ρ) : Prop where
  nextId_le : t.nextId ≤ u.nextId
  origin : ∀ id new, u.get id = some new →
    (∃ row, t.get id = some row ∧ changes id row new) ∨ (t.nextId ≤ id ∧ starts new)

namespace Descends

theorem mono {changes' : ℕ → ρ → ρ → Prop} {starts' : ρ → Prop} (hdescends : Descends changes starts t u)
    (hchanges : ∀ id row new, changes id row new → changes' id row new) (hstarts : ∀ new, starts new → starts' new) :
    Descends changes' starts' t u := by
  refine ⟨hdescends.nextId_le, fun id new hget => ?_⟩
  obtain ⟨row, hrow, hchange⟩ | ⟨hid, hstart⟩ := hdescends.origin id new hget
  · exact .inl ⟨row, hrow, hchanges id row new hchange⟩
  · exact .inr ⟨hid, hstarts new hstart⟩

/-- A row with an old id comes from the row with this id. -/
theorem old (hdescends : Descends changes starts t u) {new : ρ} (hget : u.get id = some new) (hold : id < t.nextId) :
    ∃ row, t.get id = some row ∧ changes id row new := by
  obtain hrow | ⟨hid, -⟩ := hdescends.origin id new hget
  · exact hrow
  · omega

theorem all {property : ρ → Prop} (hdescends : Descends changes starts t u) (hall : t.All property)
    (hchanges : ∀ id row new, t.get id = some row → property row → changes id row new → property new)
    (hstarts : ∀ new, starts new → property new) : u.All property := by
  intro id new hget
  obtain ⟨row, hrow, hchange⟩ | ⟨-, hstart⟩ := hdescends.origin id new hget
  · exact hchanges id row new hrow (hall id row hrow) hchange
  · exact hstarts new hstart

section Reflexive

variable (hrefl : ∀ id row, changes id row row)

include hrefl

theorem refl (t : Table ρ) : Descends changes starts t t :=
  ⟨le_refl _, fun id new hget => .inl ⟨new, hget, hrefl id new⟩⟩

theorem modify (t : Table ρ) {change : ρ → ρ} (hchange : ∀ row, t.get id = some row → changes id row (change row)) :
    Descends changes starts t (t.modify id change) := by
  refine ⟨(nextId_modify t id change).ge, fun other new hget => .inl ?_⟩
  by_cases heq : other = id
  · subst heq
    rw [get_modify, if_pos rfl, Option.map_eq_some_iff] at hget
    obtain ⟨row, hrow, rfl⟩ := hget
    exact ⟨row, hrow, hchange row hrow⟩
  · rw [get_modify_of_ne t change heq] at hget
    exact ⟨new, hget, hrefl other new⟩

theorem put (hget : t.get id = some row) {new : ρ} (hnew : changes id row new) :
    Descends changes starts t (t.put id new) := by
  refine modify hrefl t fun found hfound => ?_
  obtain rfl := Option.some.inj (hget.symm.trans hfound)
  exact hnew

theorem create (t : Table ρ) {new : ρ} (hnew : starts new) : Descends changes starts t (t.create new) := by
  refine ⟨(nextId_create t new).ge.trans' (Nat.le_succ _), fun id found hget => ?_⟩
  rw [get_create] at hget
  split at hget
  · rename_i heq
    obtain rfl := Option.some.inj hget
    exact .inr ⟨heq.ge, hnew⟩
  · exact .inl ⟨found, hget, hrefl id found⟩

theorem destroy (t : Table ρ) (id : ℕ) : Descends changes starts t (t.destroy id) := by
  refine ⟨le_refl _, fun other new hget => .inl ⟨new, ?_, hrefl other new⟩⟩
  rw [get_destroy] at hget
  split at hget
  · cases hget
  · exact hget

theorem foldl_destroy (t : Table ρ) (ids : List ℕ) : Descends changes starts t (ids.foldl Table.destroy t) := by
  have hnext : (ids.foldl Table.destroy t).nextId = t.nextId := by
    induction ids generalizing t with
    | nil => rfl
    | cons id ids ih => exact ih (t.destroy id)
  refine ⟨hnext.ge, fun id new hget => .inl ⟨new, ?_, hrefl id new⟩⟩
  rw [get_foldl_destroy] at hget
  split at hget
  · cases hget
  · exact hget

theorem skip (t : Table ρ) : Descends changes starts t t.skip :=
  ⟨Nat.le_succ _, fun id new hget => .inl ⟨new, hget, hrefl id new⟩⟩

end Reflexive

/-- Rows change twice as they may if two changes in a row are one. -/
theorem trans (htrans : ∀ id row mid new, changes id row mid → changes id mid new → changes id row new)
    (hstarts : ∀ id row new, starts row → changes id row new → starts new)
    (hfirst : Descends changes starts s t) (hsecond : Descends changes starts t u) : Descends changes starts s u := by
  refine ⟨hfirst.nextId_le.trans hsecond.nextId_le, fun id new hget => ?_⟩
  obtain ⟨mid, hmid, hchange⟩ | ⟨hid, hstart⟩ := hsecond.origin id new hget
  · obtain ⟨row, hrow, hearlier⟩ | ⟨hid, hstart⟩ := hfirst.origin id mid hmid
    · exact .inl ⟨row, hrow, htrans id row mid new hearlier hchange⟩
    · exact .inr ⟨hid, hstarts id mid new hstart hchange⟩
  · exact .inr ⟨hfirst.nextId_le.trans hid, hstart⟩

end Descends

/-! ## Rows of a kind -/

theorem isSome_first {test : ρ → Bool} :
    (t.first test).isSome = true ↔ ∃ id row, t.get id = some row ∧ test row = true := by
  constructor
  · intro hsome
    obtain ⟨id, hfirst⟩ := Option.isSome_iff_exists.mp hsome
    exact ⟨id, first_eq_some hfirst⟩
  · rintro ⟨id, row, hget, htest⟩
    rw [Option.isSome_iff_ne_none]
    intro hnone
    rw [first_eq_none.mp hnone id row hget] at htest
    cases htest

/-- The second table has a row of the kind if the first has one. -/
def Keeps (test : ρ → Bool) (t u : Table ρ) : Prop := (t.first test).isSome = true → (u.first test).isSome = true

namespace Keeps

variable {test : ρ → Bool}

theorem refl (t : Table ρ) : Keeps test t t := fun hsome => hsome

theorem trans (hfirst : Keeps test s t) (hsecond : Keeps test t u) : Keeps test s u := fun hsome =>
  hsecond (hfirst hsome)

theorem modify {change : ρ → ρ} (hchange : ∀ row, t.get id = some row → test row = true → test (change row) = true) :
    Keeps test t (t.modify id change) := by
  intro hsome
  obtain ⟨other, row, hget, htest⟩ := isSome_first.mp hsome
  rw [isSome_first]
  by_cases heq : other = id
  · subst heq
    exact ⟨other, change row, by rw [get_modify, if_pos rfl, hget, Option.map_some], hchange row hget htest⟩
  · exact ⟨other, row, (get_modify_of_ne t change heq).trans hget, htest⟩

theorem put (hget : t.get id = some row) {new : ρ} (hnew : test row = true → test new = true) :
    Keeps test t (t.put id new) := by
  refine modify fun found hfound htest => hnew ?_
  rwa [Option.some.inj (hget.symm.trans hfound)]

theorem create (t : Table ρ) (new : ρ) : Keeps test t (t.create new) := by
  intro hsome
  obtain ⟨other, row, hget, htest⟩ := isSome_first.mp hsome
  rw [isSome_first]
  refine ⟨other, row, ?_, htest⟩
  rw [get_create, if_neg (lt_nextId hget).ne, hget]

theorem skip (t : Table ρ) : Keeps test t t.skip := by
  intro hsome
  obtain ⟨other, row, hget, htest⟩ := isSome_first.mp hsome
  exact isSome_first.mpr ⟨other, row, by rwa [get_skip], htest⟩

/-- No row of the kind is destroyed. -/
theorem foldl_destroy {ids : List ℕ} (hothers : ∀ id ∈ ids, ∀ row, t.get id = some row → test row = false) :
    Keeps test t (ids.foldl Table.destroy t) := by
  intro hsome
  obtain ⟨other, row, hget, htest⟩ := isSome_first.mp hsome
  have hmem : other ∉ ids := by
    intro hmem
    rw [hothers other hmem row hget] at htest
    cases htest
  exact isSome_first.mpr ⟨other, row, by rwa [get_foldl_destroy, if_neg hmem], htest⟩

theorem destroy (hother : ∀ row, t.get id = some row → test row = false) : Keeps test t (t.destroy id) := by
  have hothers : ∀ found ∈ [id], ∀ row, t.get found = some row → test row = false := by
    intro found hfound
    rwa [List.mem_singleton.mp hfound]
  exact foldl_destroy hothers

end Keeps

end Mmog.Ruby.Table

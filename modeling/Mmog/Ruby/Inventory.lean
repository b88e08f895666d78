import Mmog.Ruby.Hash
import Mathlib.Algebra.BigOperators.Group.Multiset.Basic
import Mathlib.Data.Multiset.Count
import Mathlib.Data.Multiset.AddSub
import Mathlib.Algebra.Order.Group.Multiset

/-!
# Inventories

A finite multiset of items together with the finite set of kinds it keeps
account of, which may include kinds of which there is no item left.  It is what
a hash of amounts means when no amount is negative.
-/

namespace Mmog.Ruby

structure Inventory (κ : Type*) where
  kinds : Finset κ
  items : Multiset κ
  known : ∀ kind ∈ items, kind ∈ kinds

namespace Inventory

variable {κ : Type*}

def empty : Inventory κ := ⟨∅, 0, fun _ hmem => absurd hmem (Multiset.notMem_zero _)⟩

@[simp] theorem kinds_empty : (empty : Inventory κ).kinds = ∅ := rfl
@[simp] theorem items_empty : (empty : Inventory κ).items = 0 := rfl

variable [DecidableEq κ]

theorem ext_count {a b : Inventory κ} (kinds : a.kinds = b.kinds)
    (items : ∀ kind, a.items.count kind = b.items.count kind) : a = b := by
  cases a
  cases b
  cases kinds
  cases Multiset.ext.mpr items
  rfl

/-- Both inventories together. -/
def add (a b : Inventory κ) : Inventory κ where
  kinds := a.kinds ∪ b.kinds
  items := a.items + b.items
  known kind hmem := by
    rw [Finset.mem_union]
    exact (Multiset.mem_add.mp hmem).imp (a.known kind) (b.known kind)

/-- What is left when the items of another inventory go; no kind is forgotten. -/
def sub (a b : Inventory κ) : Inventory κ where
  kinds := a.kinds
  items := a.items - b.items
  known kind hmem := a.known kind (Multiset.mem_of_le (Multiset.sub_le_self _ _) hmem)

instance : Add (Inventory κ) := ⟨add⟩
instance : Sub (Inventory κ) := ⟨sub⟩

/-- Every kind of `a` is known to `b`, and `b` has at least as many items of it. -/
instance : LE (Inventory κ) := ⟨fun a b => a.kinds ⊆ b.kinds ∧ a.items ≤ b.items⟩

@[simp] theorem kinds_add (a b : Inventory κ) : (a + b).kinds = a.kinds ∪ b.kinds := rfl
@[simp] theorem items_add (a b : Inventory κ) : (a + b).items = a.items + b.items := rfl
@[simp] theorem kinds_sub (a b : Inventory κ) : (a - b).kinds = a.kinds := rfl
@[simp] theorem items_sub (a b : Inventory κ) : (a - b).items = a.items - b.items := rfl

/-! ## Hashes of amounts -/

/-- Every key as often as its amount says. -/
def spread : List (κ × ℤ) → Multiset κ
  | [] => 0
  | (key, amount) :: rest => Multiset.replicate amount.toNat key + spread rest

omit [DecidableEq κ] in
theorem mem_keys_of_mem_spread {entries : List (κ × ℤ)} {kind : κ} (hmem : kind ∈ spread entries) :
    kind ∈ entries.map Prod.fst := by
  induction entries with
  | nil => exact absurd hmem (Multiset.notMem_zero _)
  | cons entry entries ih =>
      rcases Multiset.mem_add.mp hmem with hhead | htail
      · exact List.mem_cons.mpr (Or.inl (Multiset.eq_of_mem_replicate hhead))
      · exact List.mem_cons_of_mem _ (ih htail)

theorem count_spread {entries : List (κ × ℤ)} (nodup : (entries.map Prod.fst).Nodup) {kind : κ}
    {amount : ℤ} (hmem : (kind, amount) ∈ entries) : (spread entries).count kind = amount.toNat := by
  induction entries with
  | nil => cases hmem
  | cons entry entries ih =>
      rw [List.map_cons, List.nodup_cons] at nodup
      rw [spread, Multiset.count_add, Multiset.count_replicate]
      rcases List.mem_cons.mp hmem with rfl | htail
      · rw [if_pos rfl, Multiset.count_eq_zero.mpr fun hmem => nodup.1 (mem_keys_of_mem_spread hmem),
          add_zero]
      · have hne : entry.1 ≠ kind := fun heq =>
          nodup.1 (heq ▸ List.mem_map_of_mem (f := Prod.fst) htail)
        rw [if_neg hne, zero_add, ih nodup.2 htail]

omit [DecidableEq κ] in
theorem sum_map_spread (c : κ → ℤ) {entries : List (κ × ℤ)}
    (hnonneg : ∀ entry ∈ entries, 0 ≤ entry.2) :
    ((spread entries).map c).sum = (entries.map fun entry => c entry.1 * entry.2).sum := by
  induction entries with
  | nil => rfl
  | cons entry entries ih =>
      have hhead := hnonneg entry (List.mem_cons_self ..)
      rw [spread, Multiset.map_add, Multiset.sum_add, Multiset.map_replicate,
        Multiset.sum_replicate, ih fun other hother => hnonneg other (List.mem_cons_of_mem _ hother),
        List.map_cons, List.sum_cons, nsmul_eq_mul, mul_comm]
      rw [Int.toNat_of_nonneg hhead]

/-- The inventory a hash of amounts stands for; a negative amount counts as none. -/
def ofHash (h : Hash κ ℤ) : Inventory κ where
  kinds := h.keys.toFinset
  items := spread h.entries
  known _ hmem := List.mem_toFinset.mpr (mem_keys_of_mem_spread hmem)

theorem mem_kinds_ofHash {h : Hash κ ℤ} {kind : κ} : kind ∈ (ofHash h).kinds ↔ kind ∈ h.keys :=
  List.mem_toFinset

@[simp] theorem count_ofHash (h : Hash κ ℤ) (kind : κ) :
    (ofHash h).items.count kind = (h.getD kind 0).toNat := by
  cases hget : h.get? kind with
  | none =>
      have hkey : kind ∉ h.keys := Hash.get?_eq_none_iff.mp hget
      have hzero : (ofHash h).items.count kind = 0 :=
        Multiset.count_eq_zero.mpr fun hmem => hkey (mem_keys_of_mem_spread hmem)
      rw [Hash.getD, hget, hzero]
      rfl
  | some amount =>
      rw [Hash.getD, hget, ofHash, count_spread h.nodup (Hash.get?_eq_some_iff.mp hget)]
      rfl

/-- The weight of a hash is the sum of the weights of its items. -/
theorem sum_map_items_ofHash (c : κ → ℤ) {h : Hash κ ℤ}
    (hnonneg : ∀ key value, h.get? key = some value → 0 ≤ value) :
    ((ofHash h).items.map c).sum = h.weight c :=
  sum_map_spread c fun entry hentry => hnonneg entry.1 entry.2 (Hash.get?_eq_some_iff.mpr hentry)

theorem ofHash_add {g h sum : Hash κ ℤ} (hkeys : ∀ key, key ∈ sum.keys ↔ key ∈ g.keys ∨ key ∈ h.keys)
    (hsum : ∀ key, sum.getD key 0 = g.getD key 0 + h.getD key 0)
    (hg : ∀ key, 0 ≤ g.getD key 0) (hh : ∀ key, 0 ≤ h.getD key 0) :
    ofHash sum = ofHash g + ofHash h := by
  refine ext_count ?_ fun kind => ?_
  · ext kind
    rw [kinds_add, Finset.mem_union, mem_kinds_ofHash, mem_kinds_ofHash, mem_kinds_ofHash, hkeys]
  · rw [items_add, Multiset.count_add, count_ofHash, count_ofHash, count_ofHash, hsum,
      Int.toNat_add (hg kind) (hh kind)]

theorem ofHash_sub {g h difference : Hash κ ℤ}
    (hkeys : ∀ key, key ∈ difference.keys ↔ key ∈ g.keys)
    (hdifference : ∀ key, difference.getD key 0 = g.getD key 0 - h.getD key 0)
    (hh : ∀ key, 0 ≤ h.getD key 0) :
    ofHash difference = ofHash g - ofHash h := by
  refine ext_count ?_ fun kind => ?_
  · ext kind
    rw [kinds_sub, mem_kinds_ofHash, mem_kinds_ofHash, hkeys]
  · have hnonneg := hh kind
    rw [items_sub, Multiset.count_sub, count_ofHash, count_ofHash, count_ofHash, hdifference]
    omega

theorem ofHash_le_iff {g h : Hash κ ℤ} (hg : ∀ key, 0 ≤ g.getD key 0) :
    ofHash h ≤ ofHash g ↔
      ∀ key value, h.get? key = some value → ∃ amount, g.get? key = some amount ∧ value ≤ amount := by
  constructor
  · rintro ⟨hkinds, hitems⟩ key value hget
    have hkey : key ∈ (ofHash h).kinds :=
      mem_kinds_ofHash.mpr (Hash.mem_keys_iff.mpr ⟨value, hget⟩)
    obtain ⟨amount, hamount⟩ := Hash.mem_keys_iff.mp (mem_kinds_ofHash.mp (hkinds hkey))
    have hcount := Multiset.le_iff_count.mp hitems key
    have hnonneg := hg key
    rw [count_ofHash, count_ofHash, Hash.getD, Hash.getD, hget, hamount] at hcount
    rw [Hash.getD, hamount] at hnonneg
    simp only [Option.getD_some] at hcount hnonneg
    exact ⟨amount, hamount, by omega⟩
  · intro hle
    refine ⟨fun kind hkind => ?_, Multiset.le_iff_count.mpr fun kind => ?_⟩
    · obtain ⟨value, hvalue⟩ := Hash.mem_keys_iff.mp (mem_kinds_ofHash.mp hkind)
      obtain ⟨amount, hamount, _⟩ := hle kind value hvalue
      exact mem_kinds_ofHash.mpr (Hash.mem_keys_iff.mpr ⟨amount, hamount⟩)
    · rw [count_ofHash, count_ofHash]
      cases hget : h.get? kind with
      | none => simp [Hash.getD, hget]
      | some value =>
          obtain ⟨amount, hamount, hvalue⟩ := hle kind value hget
          simp only [Hash.getD, hget, hamount, Option.getD_some]
          omega

end Inventory

end Mmog.Ruby

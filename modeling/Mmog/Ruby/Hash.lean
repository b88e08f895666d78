import Mathlib.Algebra.BigOperators.Group.Finset.Basic
import Mathlib.Algebra.BigOperators.Ring.Finset
import Mathlib.Algebra.Order.BigOperators.Group.Finset
import Mathlib.Algebra.Order.Ring.Int
import Mathlib.Data.List.Nodup
import Mathlib.Tactic.Ring

/-!
# Hashes

A hash maps keys to values and is walked in the order in which its keys were
first written.  Writing to a key that is present keeps the key's place.
-/

namespace Mmog.Ruby

structure Hash (κ ν : Type*) where
  entries : List (κ × ν)
  nodup : (entries.map Prod.fst).Nodup

namespace Hash

variable {κ ν μ : Type*}

def keys (h : Hash κ ν) : List κ := h.entries.map Prod.fst

def empty : Hash κ ν := ⟨[], List.nodup_nil⟩

/-- The hash with one entry. -/
def single (key : κ) (value : ν) : Hash κ ν := ⟨[(key, value)], List.nodup_singleton key⟩

@[ext] theorem ext {g h : Hash κ ν} (entries : g.entries = h.entries) : g = h := by
  cases g
  cases h
  cases entries
  rfl

instance [DecidableEq κ] [DecidableEq ν] : DecidableEq (Hash κ ν) := fun g h =>
  decidable_of_iff (g.entries = h.entries) ⟨ext, congrArg entries⟩

@[simp] theorem entries_empty : (empty : Hash κ ν).entries = [] := rfl
@[simp] theorem entries_single (key : κ) (value : ν) :
    (single key value).entries = [(key, value)] := rfl
@[simp] theorem keys_empty : (empty : Hash κ ν).keys = [] := rfl
@[simp] theorem keys_single (key : κ) (value : ν) : (single key value).keys = [key] := rfl

theorem keys_nodup (h : Hash κ ν) : h.keys.Nodup := h.nodup

/-- A hash given by a list of keys and the value of each. -/
def tabulate (keys : List κ) (nodup : keys.Nodup) (value : κ → ν) : Hash κ ν where
  entries := keys.map fun key => (key, value key)
  nodup := by
    rw [List.map_map]
    exact (List.map_id keys).symm ▸ nodup

/-- The entries whose key passes a test. -/
def filterKeys (h : Hash κ ν) (test : κ → Bool) : Hash κ ν where
  entries := h.entries.filter fun entry => test entry.1
  nodup := h.nodup.sublist (List.filter_sublist.map Prod.fst)

section Lookup

variable [DecidableEq κ]

def get? (h : Hash κ ν) (key : κ) : Option ν :=
  (h.entries.find? fun entry => entry.1 = key).map Prod.snd

/-- The value of a key, or the hash's default. -/
def getD (h : Hash κ ν) (key : κ) (default : ν) : ν := (h.get? key).getD default

def write (entries : List (κ × ν)) (key : κ) (value : ν) : List (κ × ν) :=
  if key ∈ entries.map Prod.fst then
    entries.map fun entry => if entry.1 = key then (key, value) else entry
  else entries ++ [(key, value)]

theorem write_keys (entries : List (κ × ν)) (key : κ) (value : ν) :
    (write entries key value).map Prod.fst =
      if key ∈ entries.map Prod.fst then entries.map Prod.fst
      else entries.map Prod.fst ++ [key] := by
  unfold write
  split
  · rw [List.map_map]
    refine List.map_congr_left fun entry _ => ?_
    by_cases heq : entry.1 = key <;> simp [heq]
  · simp

/-- `h[key] = value`. -/
def insert (h : Hash κ ν) (key : κ) (value : ν) : Hash κ ν where
  entries := write h.entries key value
  nodup := by
    rw [write_keys]
    split
    · exact h.nodup
    · rename_i hnew
      exact List.nodup_append.mpr ⟨h.nodup, List.nodup_singleton key, fun a ha b hb heq =>
        hnew (by rw [List.mem_singleton.mp hb] at heq; exact heq ▸ ha)⟩

theorem get?_eq_none_iff {h : Hash κ ν} {key : κ} : h.get? key = none ↔ key ∉ h.keys := by
  simp only [get?, keys, Option.map_eq_none_iff, List.find?_eq_none, List.mem_map,
    decide_eq_true_eq, not_exists, not_and]

theorem mem_keys_iff {h : Hash κ ν} {key : κ} : key ∈ h.keys ↔ ∃ value, h.get? key = some value := by
  rw [← Option.isSome_iff_exists, ← not_iff_not, Option.not_isSome_iff_eq_none, get?_eq_none_iff]

theorem find?_of_mem {entries : List (κ × ν)} (nodup : (entries.map Prod.fst).Nodup)
    {key : κ} {value : ν} (hmem : (key, value) ∈ entries) :
    entries.find? (fun entry => entry.1 = key) = some (key, value) := by
  induction entries with
  | nil => cases hmem
  | cons entry rest ih =>
      rw [List.map_cons, List.nodup_cons] at nodup
      rcases List.mem_cons.mp hmem with rfl | htail
      · simp
      · have hne : entry.1 ≠ key := fun heq =>
          nodup.1 (heq ▸ List.mem_map_of_mem (f := Prod.fst) htail)
        rw [List.find?_cons_of_neg (by simpa using hne)]
        exact ih nodup.2 htail

theorem get?_eq_some_iff {h : Hash κ ν} {key : κ} {value : ν} :
    h.get? key = some value ↔ (key, value) ∈ h.entries := by
  constructor
  · intro hget
    obtain ⟨entry, hfind, rfl⟩ := Option.map_eq_some_iff.mp hget
    have hkey : entry.1 = key := by simpa using List.find?_some hfind
    rw [← hkey]
    exact List.mem_of_find?_eq_some hfind
  · intro hmem
    rw [get?, find?_of_mem h.nodup hmem]
    rfl

@[simp] theorem get?_empty (key : κ) : (empty : Hash κ ν).get? key = none := rfl

theorem get?_single (key : κ) (value : ν) (other : κ) :
    (single key value).get? other = if key = other then some value else none := by
  by_cases heq : key = other <;> simp [get?, heq]

theorem get?_tabulate {keys : List κ} {nodup : keys.Nodup} {value : κ → ν} (key : κ) :
    (tabulate keys nodup value).get? key = if key ∈ keys then some (value key) else none := by
  split
  · rename_i hmem
    exact get?_eq_some_iff.mpr (List.mem_map_of_mem hmem)
  · rename_i hmem
    rw [get?_eq_none_iff]
    simpa [Hash.keys, tabulate] using hmem

theorem get?_filterKeys (h : Hash κ ν) (test : κ → Bool) (key : κ) :
    (h.filterKeys test).get? key = if test key then h.get? key else none := by
  split
  · rename_i htest
    cases hget : h.get? key with
    | none =>
        rw [get?_eq_none_iff] at hget ⊢
        exact fun hmem => hget ((List.filter_sublist.map Prod.fst).subset hmem)
    | some value =>
        rw [get?_eq_some_iff] at hget ⊢
        exact List.mem_filter.mpr ⟨hget, htest⟩
  · rename_i htest
    rw [get?_eq_none_iff]
    intro hmem
    obtain ⟨entry, hentry, rfl⟩ := List.mem_map.mp hmem
    exact htest (List.mem_filter.mp hentry).2

/-- The value a key has in a hash of numbers, absent keys counting zero. -/
theorem getD_of_mem {h : Hash κ ν} {key : κ} {value default : ν}
    (hmem : (key, value) ∈ h.entries) : h.getD key default = value := by
  rw [getD, get?_eq_some_iff.mpr hmem]
  rfl

theorem getD_of_not_mem {h : Hash κ ν} {key : κ} {default : ν} (hmem : key ∉ h.keys) :
    h.getD key default = default := by
  rw [getD, get?_eq_none_iff.mpr hmem]
  rfl

theorem keys_insert (h : Hash κ ν) (key : κ) (value : ν) :
    (h.insert key value).keys = if key ∈ h.keys then h.keys else h.keys ++ [key] :=
  write_keys h.entries key value

/-- Keys written one after another get their places in the order in which they are new. -/
theorem keys_foldl_insert (value : κ → ν) (keys : List κ) (h : Hash κ ν) :
    (keys.foldl (fun h key => h.insert key (value key)) h).keys =
      keys.foldl (fun found key => if key ∈ found then found else found ++ [key]) h.keys := by
  induction keys generalizing h with
  | nil => rfl
  | cons key keys ih => rw [List.foldl_cons, List.foldl_cons, ih, keys_insert]

theorem prefix_foldl_keys (keys found : List κ) :
    found <+: keys.foldl (fun found key => if key ∈ found then found else found ++ [key]) found := by
  induction keys generalizing found with
  | nil => exact List.prefix_refl found
  | cons key keys ih =>
      rw [List.foldl_cons]
      split
      · exact ih found
      · exact (List.prefix_append found [key]).trans (ih _)

theorem entries_eq_map (h : Hash κ ν) (default : ν) :
    h.entries = h.keys.map fun key => (key, h.getD key default) := by
  rw [keys, List.map_map]
  refine (List.map_id _).symm.trans (List.map_congr_left fun entry hentry => ?_)
  rw [Function.comp_apply, getD_of_mem hentry]
  rfl

theorem get?_insert (h : Hash κ ν) (key : κ) (value : ν) (other : κ) :
    (h.insert key value).get? other = if other = key then some value else h.get? other := by
  have hmem : (other, value) ∈ (h.insert other value).entries := by
    simp only [insert, write]
    split
    · rename_i hin
      obtain ⟨entry, hentry, hkey⟩ := List.mem_map.mp hin
      exact List.mem_map.mpr ⟨entry, hentry, if_pos hkey⟩
    · exact List.mem_append_right _ (List.mem_singleton_self _)
  split
  · rename_i heq
    subst heq
    exact get?_eq_some_iff.mpr hmem
  · rename_i hne
    refine Option.ext fun found => ?_
    rw [get?_eq_some_iff, get?_eq_some_iff]
    simp only [insert, write]
    split
    · rw [List.mem_map]
      constructor
      · rintro ⟨entry, hentry, heq⟩
        by_cases hkey : entry.1 = key
        · rw [if_pos hkey] at heq
          exact absurd (congrArg Prod.fst heq).symm hne
        · rw [if_neg hkey] at heq
          exact heq ▸ hentry
      · intro hentry
        exact ⟨(other, found), hentry, if_neg hne⟩
    · rw [List.mem_append, List.mem_singleton]
      exact or_iff_left fun heq => hne (congrArg Prod.fst heq)

theorem mem_entries_insert {h : Hash κ ν} {key : κ} {value : ν} {entry : κ × ν}
    (hmem : entry ∈ (h.insert key value).entries) : entry ∈ h.entries ∨ entry = (key, value) := by
  have hget : (h.insert key value).get? entry.1 = some entry.2 := get?_eq_some_iff.mpr hmem
  rw [get?_insert] at hget
  split at hget
  · rename_i heq
    exact Or.inr (Prod.ext heq (Option.some.inj hget).symm)
  · exact Or.inl (get?_eq_some_iff.mp hget)

end Lookup

/-- `each`, folding a total over the entries. -/
def sum [AddMonoid μ] (h : Hash κ ν) (term : κ → ν → μ) : μ :=
  (h.entries.map fun entry => term entry.1 entry.2).sum

/-! ## Hashes of numbers -/

section Weight

variable [DecidableEq κ]

/-- The sum of the amounts, each times the weight of its key. -/
def weight (c : κ → ℤ) (h : Hash κ ℤ) : ℤ := h.sum fun key amount => c key * amount

theorem weight_eq_sum (c : κ → ℤ) (h : Hash κ ℤ) (support : Finset κ)
    (hsupport : ∀ key ∈ h.keys, key ∈ support) :
    h.weight c = ∑ key ∈ support, c key * h.getD key 0 := by
  have hlist : h.weight c = (h.keys.map fun key => c key * h.getD key 0).sum := by
    rw [weight, sum, keys, List.map_map]
    refine congrArg List.sum (List.map_congr_left fun entry hentry => ?_)
    rw [Function.comp_apply, getD_of_mem hentry]
  rw [hlist, ← List.sum_toFinset _ h.keys_nodup]
  refine Finset.sum_subset (fun key hkey => hsupport key (List.mem_toFinset.mp hkey)) ?_
  intro key _ hkey
  rw [getD_of_not_mem fun hmem => hkey (List.mem_toFinset.mpr hmem), mul_zero]

theorem weight_nonneg {c : κ → ℤ} {h : Hash κ ℤ} (hc : ∀ key, 0 ≤ c key)
    (hh : ∀ key, 0 ≤ h.getD key 0) : 0 ≤ h.weight c := by
  rw [weight_eq_sum c h _ fun key hkey => List.mem_toFinset.mpr hkey]
  exact Finset.sum_nonneg fun key _ => mul_nonneg (hc key) (hh key)

end Weight

end Hash

end Mmog.Ruby

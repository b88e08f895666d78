import Mathlib.Data.List.Basic
import Mathlib.Logic.Function.Basic

/-!
# Cells that are written by their key

A value is written to the first cell with its key.  When cells start blank and
the values meant for some of them are written one after another, they come out
right exactly when cells that share a key were to stay blank.
-/

namespace Mmog.Ruby

/-- A view of cells as keys with a value that can be overwritten. -/
structure Tally (γ κ ν : Type*) where
  key : γ → κ
  value : γ → ν
  write : ν → γ → γ
  key_write : ∀ v cell, key (write v cell) = key cell
  value_write : ∀ v cell, value (write v cell) = v
  write_write : ∀ v v' cell, write v (write v' cell) = write v cell
  write_value : ∀ cell, write (value cell) cell = cell

namespace Tally

variable {γ κ ν : Type*} [DecidableEq κ] (t : Tally γ κ ν)

/-- Writes the first cell with the key; without one there is no result. -/
def writeFirst (k : κ) (v : ν) : List γ → Option (List γ)
  | [] => none
  | cell :: cells =>
      if t.key cell = k then some (t.write v cell :: cells) else (writeFirst k v cells).map (cell :: ·)

def writeAll (writes : List (κ × ν)) (cells : List γ) : Option (List γ) :=
  writes.foldlM (fun cells write => t.writeFirst write.1 write.2 cells) cells

/-- The cells when the first one of each key that was not seen before has the value of its key. -/
def fill (f : κ → ν) : List κ → List γ → List γ
  | _, [] => []
  | seen, cell :: cells =>
      (if t.key cell ∈ seen then cell else t.write (f (t.key cell)) cell) :: fill f (t.key cell :: seen) cells

variable {t} {f g : κ → ν} {seen : List κ} {cell : γ} {cells before after : List γ} {k : κ} {v blank : ν}

/-! ## Writing -/

theorem fill_congr (hsame : ∀ k, k ∉ seen → f k = g k) : t.fill f seen cells = t.fill g seen cells := by
  induction cells generalizing seen with
  | nil => rfl
  | cons cell cells ih =>
      rw [fill, fill, ih fun k hk => hsame k (List.not_mem_of_not_mem_cons hk)]
      split
      · rfl
      · rename_i hnew
        rw [hsame _ hnew]

theorem writeFirst_fill (hnew : k ∉ seen) (hmem : k ∈ cells.map t.key) :
    t.writeFirst k v (t.fill f seen cells) = some (t.fill (Function.update f k v) seen cells) := by
  induction cells generalizing seen with
  | nil => cases hmem
  | cons cell cells ih =>
      by_cases hkey : t.key cell = k
      · have hrest : t.fill f (t.key cell :: seen) cells = t.fill (Function.update f k v) (t.key cell :: seen) cells :=
          fill_congr fun other hother => by
            rw [Function.update_of_ne fun heq => hother (List.mem_cons.mpr (.inl (heq.trans hkey.symm)))]
        rw [fill, fill, hkey, if_neg hnew, if_neg hnew, writeFirst, t.key_write, if_pos hkey, t.write_write,
          Function.update_self, ← hkey, hrest, hkey]
      · have hlater : k ∈ cells.map t.key := (List.mem_cons.mp hmem).resolve_left fun heq => hkey heq.symm
        have hunseen : k ∉ t.key cell :: seen := List.not_mem_cons_of_ne_of_not_mem (Ne.symm hkey) hnew
        have hhead : t.key (if t.key cell ∈ seen then cell else t.write (f (t.key cell)) cell) = t.key cell := by
          split
          · rfl
          · exact t.key_write _ _
        rw [fill, fill, writeFirst, hhead, if_neg hkey, ih hunseen hlater, Option.map_some,
          Function.update_of_ne hkey]

/-- Writing one value after another, each key keeps the last value. -/
theorem writeAll_fill (writes : List (κ × ν)) (hmem : ∀ write ∈ writes, write.1 ∈ cells.map t.key) :
    t.writeAll writes (t.fill f [] cells) =
      some (t.fill (writes.foldl (fun f write => Function.update f write.1 write.2) f) [] cells) := by
  induction writes generalizing f with
  | nil => rfl
  | cons write writes ih =>
      rw [writeAll, List.foldlM_cons, writeFirst_fill List.not_mem_nil (hmem write List.mem_cons_self)]
      exact ih fun other hother => hmem other (List.mem_cons_of_mem write hother)

theorem fill_blank (cells : List γ) (seen : List κ) :
    t.fill (fun _ => blank) seen (cells.map (t.write blank)) = cells.map (t.write blank) := by
  induction cells generalizing seen with
  | nil => rfl
  | cons cell cells ih =>
      rw [List.map_cons, fill, ih, t.write_write, ite_self]

theorem writeAll_append (writes others : List (κ × ν)) (cells : List γ) :
    t.writeAll (writes ++ others) cells = (t.writeAll writes cells).bind (t.writeAll others) :=
  List.foldlM_append

variable (blank) in
/-- Blank cells can be written by all their keys. -/
theorem writeAll_blank {writes : List (κ × ν)} (hmem : ∀ write ∈ writes, write.1 ∈ cells.map t.key) :
    t.writeAll writes (cells.map (t.write blank)) =
      some (t.fill (writes.foldl (fun f write => Function.update f write.1 write.2) fun _ => blank) []
        (cells.map (t.write blank))) := by
  have hkeys : (cells.map (t.write blank)).map t.key = cells.map t.key := by
    rw [List.map_map]
    exact List.map_congr_left fun cell _ => t.key_write blank cell
  rw [← hkeys] at hmem
  have hwrite := writeAll_fill (f := fun _ => blank) writes hmem
  rwa [fill_blank] at hwrite

/-! ## Coming out right -/

omit [DecidableEq κ] in
theorem write_eq_iff : t.write v cell = cell ↔ t.value cell = v := by
  constructor
  · intro hwrite
    rw [← hwrite, t.value_write]
  · rintro rfl
    exact t.write_value cell

variable (t) in
/-- The first cells of the keys that were not seen have the values of their keys, the others are blank. -/
def Settled (f : κ → ν) (blank : ν) : List κ → List γ → Prop
  | _, [] => True
  | seen, cell :: cells =>
      (if t.key cell ∈ seen then t.value cell = blank else t.value cell = f (t.key cell)) ∧
        Settled f blank (t.key cell :: seen) cells

theorem fill_eq_iff : t.fill f seen (cells.map (t.write blank)) = cells ↔ t.Settled f blank seen cells := by
  induction cells generalizing seen with
  | nil => exact iff_of_true rfl trivial
  | cons cell cells ih =>
      rw [List.map_cons, fill, List.cons.injEq, Settled, t.key_write, t.write_write, ih]
      refine and_congr_left' ?_
      split <;> exact write_eq_iff

variable (t) in
/-- The values of keys once those of some cells were written. -/
def last (f : κ → ν) (cells : List γ) : κ → ν :=
  cells.foldl (fun f cell => Function.update f (t.key cell) (t.value cell)) f

theorem last_spec (f : κ → ν) (cells : List γ) (k : κ) :
    (∃ cell ∈ cells, t.key cell = k ∧ t.last f cells k = t.value cell) ∨
      k ∉ cells.map t.key ∧ t.last f cells k = f k := by
  induction cells generalizing f with
  | nil => exact .inr ⟨List.not_mem_nil, rfl⟩
  | cons cell cells ih =>
      obtain ⟨other, hother, hkey, hlast⟩ | ⟨hnot, hlast⟩ := ih (Function.update f (t.key cell) (t.value cell))
      · exact .inl ⟨other, List.mem_cons_of_mem cell hother, hkey, hlast⟩
      · by_cases hkey : k = t.key cell
        · subst hkey
          exact .inl ⟨cell, List.mem_cons_self, rfl, hlast.trans (Function.update_self _ _ f)⟩
        · exact .inr ⟨List.not_mem_cons_of_ne_of_not_mem hkey hnot, hlast.trans (Function.update_of_ne hkey _ f)⟩

/-- Blank cells change nothing. -/
theorem last_blank (hblank : ∀ cell ∈ cells, t.value cell = blank) : t.last (fun _ => blank) cells = fun _ => blank := by
  funext k
  obtain ⟨cell, hcell, -, hlast⟩ | ⟨-, hlast⟩ := last_spec (t := t) (fun _ => blank) cells k
  · exact hlast.trans (hblank cell hcell)
  · exact hlast

variable (t blank) in
/-- Two cells are blank if they share a key. -/
def Apart (a b : γ) : Prop := t.key a = t.key b → t.value a = blank ∧ t.value b = blank

theorem settled_last_iff : t.Settled (t.last f cells) blank seen cells ↔
    (∀ cell ∈ cells, t.key cell ∈ seen → t.value cell = blank) ∧ cells.Pairwise (t.Apart blank) := by
  induction cells generalizing f seen with
  | nil => simp [Settled]
  | cons cell cells ih =>
      have hih : t.Settled (t.last (Function.update f (t.key cell) (t.value cell)) cells) blank (t.key cell :: seen) cells ↔
          _ := ih
      have hlast := last_spec (t := t) (Function.update f (t.key cell) (t.value cell)) cells (t.key cell)
      rw [Settled, List.pairwise_cons, List.forall_mem_cons]
      refine (and_congr_right' hih).trans ?_
      change (if t.key cell ∈ seen then t.value cell = blank else t.value cell = t.last _ cells (t.key cell)) ∧ _ ↔ _
      constructor
      · rintro ⟨hcell, hseen, hpairs⟩
        have hothers : ∀ other ∈ cells, t.key cell = t.key other → t.value other = blank := fun other hother hkey =>
          hseen other hother (List.mem_cons.mpr (.inl hkey.symm))
        refine ⟨⟨fun hmem => (if_pos hmem).mp hcell, fun other hother hmem => ?_⟩, fun other hother hkey => ⟨?_, ?_⟩, hpairs⟩
        · exact hseen other hother (List.mem_cons_of_mem _ hmem)
        · by_cases hmem : t.key cell ∈ seen
          · exact (if_pos hmem).mp hcell
          · -- the last cell with the key comes after this one
            obtain ⟨found, hfound, hsame, hvalue⟩ | ⟨hnot, -⟩ := hlast
            · exact ((if_neg hmem).mp hcell).trans (hvalue.trans (hothers found hfound hsame.symm))
            · exact absurd (List.mem_map.mpr ⟨other, hother, hkey.symm⟩) hnot
        · exact hothers other hother hkey
      · rintro ⟨⟨hcell, hseen⟩, hapart, hpairs⟩
        refine ⟨?_, fun other hother hmem => ?_, hpairs⟩
        · split
          · rename_i hmem
            exact hcell hmem
          · obtain ⟨found, hfound, hsame, hvalue⟩ | ⟨-, hvalue⟩ := hlast
            · obtain ⟨hblank, hblank'⟩ := hapart found hfound hsame.symm
              exact hblank.trans (hvalue.trans hblank').symm
            · exact (hvalue.trans (Function.update_self _ _ f)).symm
        · rcases List.mem_cons.mp hmem with hkey | hmem
          · exact (hapart other hother hkey.symm).2
          · exact hseen other hother hmem

theorem settled_append_iff (hafter : ∀ cell ∈ after, t.value cell = blank)
    (hrest : ∀ k, k ∉ seen → k ∉ cells.map t.key → f k = blank) :
    t.Settled f blank seen (cells ++ after) ↔ t.Settled f blank seen cells := by
  induction cells generalizing seen with
  | nil =>
      refine iff_of_true ?_ trivial
      rw [List.nil_append]
      induction after generalizing seen with
      | nil => trivial
      | cons cell after ih =>
          obtain ⟨hcell, hafter⟩ := List.forall_mem_cons.mp hafter
          refine ⟨?_, ih hafter fun k hk _ => hrest k (List.not_mem_of_not_mem_cons hk) List.not_mem_nil⟩
          split
          · exact hcell
          · rename_i hnew
            exact hcell.trans (hrest _ hnew List.not_mem_nil).symm
  | cons cell cells ih =>
      refine and_congr_right' (ih fun k hk hcells => hrest k (List.not_mem_of_not_mem_cons hk) ?_)
      exact List.not_mem_cons_of_ne_of_not_mem (List.ne_of_not_mem_cons hk) hcells

/-- Writing the values of the cells in the middle to blank cells gives these cells exactly when
none of them shares its key with another one or one before them, or both were to stay blank. -/
theorem writeAll_eq_iff (before cells after : List γ) (hbefore : ∀ cell ∈ before, t.value cell = blank)
    (hafter : ∀ cell ∈ after, t.value cell = blank) :
    ∃ written, t.writeAll (cells.map fun cell => (t.key cell, t.value cell))
        ((before ++ cells ++ after).map (t.write blank)) = some written ∧
      (written = before ++ cells ++ after ↔ (before ++ cells).Pairwise (t.Apart blank)) := by
  have hmem : ∀ write ∈ cells.map fun cell => (t.key cell, t.value cell),
      write.1 ∈ (before ++ cells ++ after).map t.key := by
    intro write hwrite
    obtain ⟨cell, hcell, rfl⟩ := List.mem_map.mp hwrite
    exact List.mem_map_of_mem (List.mem_append_left after (List.mem_append_right before hcell))
  have hwrite := writeAll_blank blank hmem
  rw [List.foldl_map] at hwrite
  have hlast : t.last (fun _ => blank) cells = t.last (fun _ => blank) (before ++ cells) := by
    rw [last, last, List.foldl_append]
    exact congrArg (cells.foldl _) (last_blank hbefore).symm
  have hrest : ∀ k, k ∉ [] → k ∉ (before ++ cells).map t.key → t.last (fun _ => blank) cells k = blank := by
    intro k _ hk
    obtain ⟨cell, hcell, rfl, -⟩ | ⟨-, hvalue⟩ := last_spec (t := t) (fun _ => blank) cells k
    · exact absurd (List.mem_map_of_mem (List.mem_append_right before hcell)) hk
    · exact hvalue
  refine ⟨_, hwrite, ?_⟩
  refine fill_eq_iff.trans ((settled_append_iff hafter hrest).trans ?_)
  change t.Settled (t.last (fun _ => blank) cells) blank [] (before ++ cells) ↔ _
  rw [hlast, settled_last_iff]
  exact and_iff_right fun cell _ hseen => absurd hseen List.not_mem_nil

end Tally

end Mmog.Ruby

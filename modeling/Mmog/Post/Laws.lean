import Mmog.Model.Reports

/-!
# The laws of the post

Showing and removing act on the first row of a reader.  If nobody has two rows
for one report, that is all he has.
-/

namespace Mmog

open Ruby

namespace Post

variable {post : Post} {id : ReportId} {user : UserId}

/-- The receivers of a report, as often as they are registered. -/
def receivers (post : Post) (id : ReportId) : List UserId :=
  (post.receivingReports.filter fun row => row.report = id).map ReceivingReport.user

/-- The user has not read the report. -/
def Unread (post : Post) (user : UserId) (id : ReportId) : Prop :=
  ∃ row ∈ post.receivingReports, isFor id user row ∧ row.read = false

/-- Every report reaches each of its readers once. -/
structure Lawful (post : Post) : Prop where
  once : ∀ id, (post.receivers id).Nodup
  shown : ∀ user id, post.Unread user id → (post.showReport user id).unreadReports user + 1 = post.unreadReports user
  shown_again : ∀ user id, ¬post.Unread user id → (post.showReport user id).unreadReports user = post.unreadReports user
  removed : ∀ user id, id ∉ (post.destroyReceiver user id).index user
  deleted : ∀ id, (post.reports.get id).isSome ↔ post.receivers id ≠ []

/-- What the steps keep: no row comes twice, and the reports are those that somebody receives. -/
structure Sound (post : Post) : Prop where
  once : (post.receivingReports.map fun row => (row.report, row.user)).Nodup
  kept : ∀ id, (post.reports.get id).isSome ↔ ∃ row ∈ post.receivingReports, row.report = id

/-! ## The first row -/

section First

variable {p : ReceivingReport → Bool} {rows : List ReceivingReport} {row : ReceivingReport}

theorem isFor_iff : isFor id user row = true ↔ (row.report, row.user) = (id, user) := by
  rw [isFor, decide_eq_true_iff, Prod.mk.injEq]

theorem updateFirst_of_none {change : ReceivingReport → ReceivingReport} (hnone : ∀ row ∈ rows, ¬p row) :
    updateFirst p change rows = rows := by
  induction rows with
  | nil => rfl
  | cons first rows ih =>
      rw [updateFirst, if_neg (hnone first List.mem_cons_self), ih fun row hrow => hnone row (List.mem_cons_of_mem first hrow)]

theorem countP_updateFirst (q : ReceivingReport → Bool) (change : ReceivingReport → ReceivingReport)
    (hfirst : rows.find? p = some row) :
    rows.countP q + (if q (change row) then 1 else 0) = (updateFirst p change rows).countP q + if q row then 1 else 0 := by
  induction rows with
  | nil => cases hfirst
  | cons other rows ih =>
      rw [updateFirst]
      by_cases hp : p other = true
      · rw [List.find?_cons_of_pos hp] at hfirst
        cases hfirst
        rw [if_pos hp, List.countP_cons, List.countP_cons]
        omega
      · rw [List.find?_cons_of_neg hp] at hfirst
        rw [if_neg hp, List.countP_cons, List.countP_cons]
        have hrest := ih hfirst
        omega

theorem map_updateFirst {α : Type} {f : ReceivingReport → α} {change : ReceivingReport → ReceivingReport}
    (hchange : ∀ row, f (change row) = f row) : (updateFirst p change rows).map f = rows.map f := by
  induction rows with
  | nil => rfl
  | cons other rows ih =>
      rw [updateFirst]
      split
      · rw [List.map_cons, List.map_cons, hchange]
      · rw [List.map_cons, List.map_cons, ih]

theorem mem_iff_of_mem_map {f : ReceivingReport → ReportId} {rows rows' : List ReceivingReport}
    (hmap : rows.map f = rows'.map f) (id : ReportId) : (∃ row ∈ rows, f row = id) ↔ ∃ row ∈ rows', f row = id := by
  rw [← List.mem_map, hmap, List.mem_map]

end First

namespace Sound

variable (hsound : post.Sound)

include hsound

/-- A reader has one row for a report. -/
theorem unique {row other : ReceivingReport} (hrow : row ∈ post.receivingReports) (hother : other ∈ post.receivingReports)
    (hfor : isFor id user row = true) (hforOther : isFor id user other = true) : row = other :=
  List.inj_on_of_nodup_map hsound.once hrow hother ((isFor_iff.mp hfor).trans (isFor_iff.mp hforOther).symm)

theorem find_eq {row : ReceivingReport} (hrow : row ∈ post.receivingReports) (hfor : isFor id user row = true) :
    post.receivingReports.find? (isFor id user) = some row := by
  cases hfind : post.receivingReports.find? (isFor id user) with
  | none => exact absurd hfor (List.find?_eq_none.mp hfind row hrow)
  | some first =>
      rw [hsound.unique hrow (List.mem_of_find?_eq_some hfind) hfor (List.find?_some hfind)]

/-- Nothing is left of a reader once his first row is gone. -/
theorem not_mem_erased {first : ReceivingReport} (hfirst : first ∈ post.receivingReports) (hfor : isFor id user first = true) :
    ∀ row ∈ post.receivingReports.eraseP (isFor id user), ¬isFor id user row = true := by
  obtain ⟨found, before, later, -, hfound, hsplit, herased⟩ := List.exists_of_eraseP hfirst hfor
  intro row hrow hforRow
  rw [herased] at hrow
  have honce := hsound.once
  have hmem : row ∈ post.receivingReports := by
    rw [hsplit]
    exact (List.mem_append.mp hrow).elim (List.mem_append_left _) fun hlater =>
      List.mem_append_right _ (List.mem_cons_of_mem found hlater)
  have hsame : row = found :=
    hsound.unique hmem (hsplit ▸ List.mem_append_right before List.mem_cons_self) hforRow hfound
  rw [hsplit] at honce
  have hnodup := honce.of_map
  rw [List.nodup_middle] at hnodup
  exact (List.nodup_cons.mp hnodup).1 (hsame ▸ hrow)

theorem stored {row : ReceivingReport} (hrow : row ∈ post.receivingReports) : (post.reports.get row.report).isSome :=
  (hsound.kept row.report).mpr ⟨row, hrow, rfl⟩

/-! ### The steps -/

theorem file {reportable : Reportable} (hnodup : reportable.report.receivers.Nodup)
    (hne : reportable.report.receivers ≠ []) : (post.file reportable).Sound where
  once := by
    rw [Post.file, List.map_append, List.map_map]
    refine List.nodup_append'.mpr ⟨hsound.once, hnodup.map fun _ _ heq => (Prod.mk.inj heq).2, ?_⟩
    rintro ⟨id, user⟩ hold hnew
    obtain ⟨row, hrow, hkey⟩ := List.mem_map.mp hold
    obtain ⟨receiver, -, hreceiver⟩ := List.mem_map.mp hnew
    obtain ⟨stored, hstored⟩ := Option.isSome_iff_exists.mp (hsound.stored hrow)
    have hid : row.report = post.reports.nextId := (Prod.mk.inj (hkey.trans hreceiver.symm)).1
    exact Table.ne_nextId hstored hid
  kept id := by
    have hnew : (∃ row ∈ reportable.report.receivers.map fun user => ({ report := post.reports.nextId, user } : ReceivingReport),
        row.report = id) ↔ id = post.reports.nextId := by
      obtain ⟨receiver, hreceiver⟩ := List.exists_mem_of_ne_nil _ hne
      constructor
      · rintro ⟨row, hrow, rfl⟩
        obtain ⟨user, -, rfl⟩ := List.mem_map.mp hrow
        rfl
      · rintro rfl
        exact ⟨_, List.mem_map_of_mem hreceiver, rfl⟩
    simp only [Post.file, List.mem_append, or_and_right, exists_or]
    rw [hnew, ← hsound.kept id, Table.get_create]
    split
    · exact iff_of_true rfl (.inr ‹_›)
    · exact (or_iff_left ‹_›).symm

theorem showReport (user : UserId) (id : ReportId) : (post.showReport user id).Sound := by
  have hkept : ∀ {α : Type} (f : ReceivingReport → α), (∀ row, f row.setRead = f row) →
      (updateFirst (isFor id user) ReceivingReport.setRead post.receivingReports).map f = post.receivingReports.map f :=
    fun f hf => map_updateFirst hf
  have hkey := hkept (fun row => (row.report, row.user)) fun _ => rfl
  have hreport := hkept ReceivingReport.report fun _ => rfl
  unfold Post.showReport
  cases post.reports.get id with
  | none => exact hsound
  | some reportable =>
      refine ⟨?_, fun other => (hsound.kept other).trans ?_⟩
      · exact hkey.symm ▸ hsound.once
      · exact (mem_iff_of_mem_map hreport other).symm

theorem destroyReceiver (user : UserId) (id : ReportId) : (post.destroyReceiver user id).Sound := by
  unfold Post.destroyReceiver
  have honce : ((post.receivingReports.eraseP (isFor id user)).map fun row => (row.report, row.user)).Nodup :=
    hsound.once.sublist (List.eraseP_sublist.map _)
  have hothers : ∀ {other : ReportId}, other ≠ id →
      ((post.reports.get other).isSome ↔ ∃ row ∈ post.receivingReports.eraseP (isFor id user), row.report = other) := by
    intro other hne
    rw [hsound.kept other]
    refine exists_congr fun row => and_congr_left fun hrow => (List.mem_eraseP_of_neg fun hfor => ?_).symm
    exact hne (hrow ▸ (Prod.mk.inj (isFor_iff.mp hfor)).1)
  cases hget : post.reports.get id with
  | none => exact hsound
  | some reportable =>
      dsimp only
      split
      · split
        · refine ⟨honce, fun other => ?_⟩
          by_cases hother : other = id
          · obtain ⟨row, hrow, hid⟩ := List.any_eq_true.mp ‹_›
            subst hother
            exact iff_of_true (by rw [hget]; rfl) ⟨row, hrow, of_decide_eq_true hid⟩
          · exact hothers hother
        · refine ⟨honce, fun other => ?_⟩
          rw [Table.get_destroy]
          by_cases hother : other = id
          · rw [if_pos hother]
            refine iff_of_false nofun fun ⟨row, hrow, hid⟩ => ?_
            exact ‹¬_› (List.any_eq_true.mpr ⟨row, hrow, decide_eq_true (hid.trans hother)⟩)
          · rw [if_neg hother]
            exact hothers hother
      · exact hsound

/-! ### The laws -/

theorem nodup_receivers (id : ReportId) : (post.receivers id).Nodup := by
  refine List.Nodup.map_on (fun row hrow other hother heq => ?_) (hsound.once.of_map.filter _)
  obtain ⟨hrow, hid⟩ := List.mem_filter.mp hrow
  obtain ⟨hother, hidOther⟩ := List.mem_filter.mp hother
  have hfor : isFor id row.user row = true := isFor_iff.mpr (Prod.ext (of_decide_eq_true hid) rfl)
  exact hsound.unique hrow hother hfor (isFor_iff.mpr (Prod.ext (of_decide_eq_true hidOther) heq.symm))

/-- A new report has the receivers it was given. -/
theorem receivers_file (reportable : Reportable) :
    (post.file reportable).receivers post.reports.nextId = reportable.report.receivers := by
  have hold : post.receivingReports.filter (fun row => row.report = post.reports.nextId) = [] := by
    refine List.filter_eq_nil_iff.mpr fun row hrow hid => ?_
    obtain ⟨stored, hstored⟩ := Option.isSome_iff_exists.mp (hsound.stored hrow)
    exact Table.ne_nextId hstored (of_decide_eq_true hid)
  rw [Post.receivers, Post.file, List.filter_append, hold, List.nil_append,
    List.filter_eq_self.mpr fun row hrow => ?_, List.map_map]
  · exact List.map_id' _
  · obtain ⟨user, -, rfl⟩ := List.mem_map.mp hrow
    exact decide_eq_true rfl

theorem unreadReports_show {row : ReceivingReport} (hrow : row ∈ post.receivingReports) (hfor : isFor id user row = true) :
    (post.showReport user id).unreadReports user + (if row.read = false then 1 else 0) = post.unreadReports user := by
  obtain ⟨hid, huser⟩ := Prod.mk.inj (isFor_iff.mp hfor)
  have hstored := hsound.stored hrow
  obtain ⟨reportable, hget⟩ := Option.isSome_iff_exists.mp (hid ▸ hstored)
  have hcount := countP_updateFirst (fun row =>
    decide ((post.reports.get row.report).isSome ∧ row.user = user ∧ row.read = false)) ReceivingReport.setRead
      (hsound.find_eq hrow hfor)
  have hread : row.setRead.read = true := rfl
  simp only [hread, hstored, huser, true_and, and_false, decide_false, Bool.false_eq_true, if_false, Nat.add_zero,
    decide_eq_true_eq, Bool.true_eq_false] at hcount
  rw [Post.showReport, hget]
  exact hcount.symm

theorem lawful : post.Lawful where
  once := hsound.nodup_receivers
  shown user id hunread := by
    obtain ⟨row, hrow, hfor, hread⟩ := hunread
    rw [← hsound.unreadReports_show hrow hfor, if_pos hread]
  shown_again user id hread := by
    by_cases hreceives : ∃ row ∈ post.receivingReports, isFor id user row = true
    · obtain ⟨row, hrow, hfor⟩ := hreceives
      rw [← hsound.unreadReports_show hrow hfor, if_neg fun hunread => hread ⟨row, hrow, hfor, hunread⟩,
        Nat.add_zero]
    · have hnone : ∀ row ∈ post.receivingReports, ¬isFor id user row = true :=
        fun row hrow hfor => hreceives ⟨row, hrow, hfor⟩
      unfold Post.showReport
      cases post.reports.get id with
      | none => rfl
      | some reportable => rw [updateFirst_of_none hnone]
  removed user id := by
    have hgone : ∀ row ∈ (post.destroyReceiver user id).receivingReports,
        ((post.destroyReceiver user id).reports.get row.report).isSome → ¬isFor id user row = true := by
      unfold Post.destroyReceiver
      cases hget : post.reports.get id with
      | none =>
          intro row hrow hstored hfor
          rw [(Prod.mk.inj (isFor_iff.mp hfor)).1, hget] at hstored
          cases hstored
      | some reportable =>
          dsimp only
          by_cases hany : post.receivingReports.any (isFor id user) = true
          · rw [if_pos hany]
            obtain ⟨first, hfirst, hfor⟩ := List.any_eq_true.mp hany
            have herased := hsound.not_mem_erased hfirst hfor
            split <;> exact fun row hrow _ => herased row hrow
          · rw [if_neg hany]
            exact fun row hrow _ hfor => hany (List.any_eq_true.mpr ⟨row, hrow, hfor⟩)
    intro hmem
    obtain ⟨row, hrow, hid⟩ := List.mem_map.mp hmem
    obtain ⟨hrow, hlisted⟩ := List.mem_filter.mp hrow
    obtain ⟨hstored, huser⟩ := of_decide_eq_true hlisted
    exact hgone row hrow hstored (isFor_iff.mpr (Prod.ext hid huser))
  deleted id := by
    rw [hsound.kept id, Post.receivers, Ne, List.map_eq_nil_iff, List.filter_eq_nil_iff]
    simp only [decide_eq_true_eq, not_forall, not_not, exists_prop]

end Sound

end Post

end Mmog

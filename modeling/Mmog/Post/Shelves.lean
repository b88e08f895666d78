import Mmog.Post.Once

/-!
# Shelves

What a reader has of a report is a list of copies, read or not.  Only what he
does himself changes it, and the report is there as long as somebody has a copy.
-/

namespace Mmog

open Ruby

/-! ## The copies of a reader -/

/-- What a reader does with a report. -/
inductive Handling where
  | read | remove
  deriving DecidableEq

/-- The first copy is read or removed. -/
def Handling.apply : List Bool → Handling → List Bool
  | [], _ => []
  | _ :: copies, .read => true :: copies
  | _ :: copies, .remove => copies

@[simp] theorem Handling.apply_nil (handling : Handling) : handling.apply [] = [] := by
  cases handling <;> rfl

/-- What an event does with the copies that a reader has of a report. -/
def PostEvent.handling (id : ReportId) (user : UserId) : PostEvent → Option Handling
  | .showReport reader report => if report = id ∧ reader = user then some .read else none
  | .destroyReport reader report => if report = id ∧ reader = user then some .remove else none
  | _ => none

namespace Post

/-- The copies that a reader has of a report, read or not, oldest first. -/
def shelf (post : Post) (id : ReportId) (user : UserId) : List Bool :=
  (post.receivingReports.filter (isFor id user)).map ReceivingReport.read

section Rows

variable {p q : ReceivingReport → Bool} (rows : List ReceivingReport)

theorem filter_updateFirst_self {change : ReceivingReport → ReceivingReport}
    (hchange : ∀ row, p (change row) = p row) :
    (updateFirst p change rows).filter p = match rows.filter p with
      | [] => []
      | row :: rest => change row :: rest := by
  induction rows with
  | nil => rfl
  | cons row rows ih =>
      rw [updateFirst]
      by_cases hp : p row = true
      · rw [if_pos hp, List.filter_cons_of_pos ((hchange row).trans hp), List.filter_cons_of_pos hp]
      · rw [if_neg hp, List.filter_cons_of_neg hp, List.filter_cons_of_neg hp, ih]

theorem filter_updateFirst_of_disjoint {change : ReceivingReport → ReceivingReport}
    (hchange : ∀ row, q (change row) = q row) (hdisjoint : ∀ row, p row = true → q row = false) :
    (updateFirst p change rows).filter q = rows.filter q := by
  induction rows with
  | nil => rfl
  | cons row rows ih =>
      rw [updateFirst]
      by_cases hp : p row = true
      · have hq : ¬q row = true := Bool.eq_false_iff.mp (hdisjoint row hp)
        rw [if_pos hp, List.filter_cons_of_neg hq, List.filter_cons_of_neg (by rwa [hchange])]
      · rw [if_neg hp, List.filter_cons, List.filter_cons, ih]

theorem filter_eraseP_self : (rows.eraseP p).filter p = (rows.filter p).tail := by
  induction rows with
  | nil => rfl
  | cons row rows ih =>
      by_cases hp : p row = true
      · rw [List.eraseP_cons_of_pos hp, List.filter_cons_of_pos hp, List.tail_cons]
      · rw [List.eraseP_cons_of_neg hp, List.filter_cons_of_neg hp, List.filter_cons_of_neg hp, ih]

theorem filter_eraseP_of_disjoint (hdisjoint : ∀ row, p row = true → q row = false) :
    (rows.eraseP p).filter q = rows.filter q := by
  induction rows with
  | nil => rfl
  | cons row rows ih =>
      by_cases hp : p row = true
      · rw [List.eraseP_cons_of_pos hp, List.filter_cons_of_neg (Bool.eq_false_iff.mp (hdisjoint row hp))]
      · rw [List.eraseP_cons_of_neg hp, List.filter_cons, List.filter_cons, ih]

end Rows

variable {post : Post} {id other : ReportId} {user reader : UserId}

theorem isFor_disjoint (hother : ¬(other = id ∧ reader = user)) (row : ReceivingReport)
    (hfor : isFor other reader row = true) :
    isFor id user row = false := by
  refine Bool.eq_false_iff.mpr fun hboth => hother ?_
  exact Prod.mk.inj ((isFor_iff.mp hfor).symm.trans (isFor_iff.mp hboth))

theorem shelf_eq_nil : post.shelf id user = [] ↔ ∀ row ∈ post.receivingReports, ¬isFor id user row = true := by
  rw [shelf, List.map_eq_nil_iff, List.filter_eq_nil_iff]

/-- The reports that are there are those of which somebody has a copy. -/
def Shelved (post : Post) : Prop := ∀ id, (post.reports.get id).isSome = true ↔ ∃ user, post.shelf id user ≠ []

theorem exists_shelf_iff :
    (∃ user, post.shelf id user ≠ []) ↔ ∃ row ∈ post.receivingReports, row.report = id := by
  constructor
  · rintro ⟨user, hne⟩
    by_contra hnone
    refine hne (shelf_eq_nil.mpr fun row hrow hfor => hnone ⟨row, hrow, ?_⟩)
    exact (Prod.mk.inj (isFor_iff.mp hfor)).1
  · rintro ⟨row, hrow, rfl⟩
    exact ⟨row.user, fun hnil => shelf_eq_nil.mp hnil row hrow (isFor_iff.mpr rfl)⟩

namespace Shelved

theorem empty : ({} : Post).Shelved := fun _ => iff_of_false (fun hsome => by cases hsome) fun ⟨_, hne⟩ => hne rfl

variable (hshelved : post.Shelved)

include hshelved

theorem shelf_of_none (hget : post.reports.get id = none) (user : UserId) : post.shelf id user = [] := by
  by_contra hne
  have hsome := (hshelved id).mpr ⟨user, hne⟩
  rw [hget] at hsome
  cases hsome

/-! ## The steps -/

/-- A new report gives each receiver as many copies as he was registered, and touches no other report. -/
theorem shelf_file (reportable : Reportable) (id : ReportId) (user : UserId) :
    (post.file reportable).shelf id user = if id = post.reports.nextId then
      List.replicate (reportable.report.receivers.count user) false else post.shelf id user := by
  rw [shelf, file, List.filter_append, List.map_append, List.filter_map, List.map_map]
  change post.shelf id user ++ _ = _
  by_cases heq : id = post.reports.nextId
  · rw [if_pos heq, hshelved.shelf_of_none (heq ▸ post.reports.fresh _ le_rfl), List.nil_append, heq,
      List.eq_replicate_iff, List.length_map, List.count_eq_length_filter]
    refine ⟨congrArg List.length (List.filter_congr fun receiver _ => ?_), fun copy hcopy => ?_⟩
    · rw [Function.comp_apply, isFor]
      exact (decide_eq_decide.mpr (and_iff_right rfl)).trans rfl
    · obtain ⟨receiver, -, rfl⟩ := List.mem_map.mp hcopy
      rfl
  · rw [if_neg heq, List.filter_eq_nil_iff.mpr fun receiver _ hfor => ?_, List.map_nil, List.append_nil]
    exact heq (Prod.mk.inj (isFor_iff.mp hfor)).1.symm

theorem shelf_showReport (reader : UserId) (other id : ReportId) (user : UserId) :
    (post.showReport reader other).shelf id user =
      ((PostEvent.showReport reader other).handling id user).elim (post.shelf id user)
        (Handling.apply (post.shelf id user)) := by
  have hread : ∀ id user row, isFor id user (ReceivingReport.setRead row) = isFor id user row := fun _ _ _ => rfl
  rw [PostEvent.handling, showReport]
  by_cases hself : other = id ∧ reader = user
  · obtain ⟨rfl, rfl⟩ := hself
    rw [if_pos ⟨rfl, rfl⟩, Option.elim_some]
    cases hget : post.reports.get other with
    | none =>
        rw [hshelved.shelf_of_none hget]
        rfl
    | some reportable =>
        rw [shelf, filter_updateFirst_self _ (hread other reader), shelf]
        cases post.receivingReports.filter (isFor other reader) with
        | nil => rfl
        | cons row rest => rfl
  · rw [if_neg hself, Option.elim_none]
    cases post.reports.get other with
    | none => rfl
    | some reportable =>
        rw [shelf, filter_updateFirst_of_disjoint _ (hread id user) (isFor_disjoint hself)]
        rfl

/-- Removing erases the first row, whatever becomes of the report. -/
theorem receivingReports_destroyReceiver (reader : UserId) (other : ReportId) :
    (post.destroyReceiver reader other).receivingReports = post.receivingReports.eraseP (isFor other reader) := by
  have hnone : (∀ row ∈ post.receivingReports, ¬isFor other reader row = true) →
      post.receivingReports = post.receivingReports.eraseP (isFor other reader) := fun hall =>
    (List.eraseP_of_forall_not hall).symm
  rw [destroyReceiver]
  cases hget : post.reports.get other with
  | none => exact hnone (shelf_eq_nil.mp (hshelved.shelf_of_none hget reader))
  | some reportable =>
      dsimp only
      split
      · split <;> rfl
      · rename_i hany
        exact hnone fun row hrow hfor => hany (List.any_eq_true.mpr ⟨row, hrow, hfor⟩)

theorem shelf_destroyReceiver (reader : UserId) (other id : ReportId) (user : UserId) :
    (post.destroyReceiver reader other).shelf id user =
      ((PostEvent.destroyReport reader other).handling id user).elim (post.shelf id user)
        (Handling.apply (post.shelf id user)) := by
  rw [PostEvent.handling, shelf, hshelved.receivingReports_destroyReceiver, shelf]
  by_cases hself : other = id ∧ reader = user
  · obtain ⟨rfl, rfl⟩ := hself
    rw [if_pos ⟨rfl, rfl⟩, Option.elim_some, filter_eraseP_self]
    cases post.receivingReports.filter (isFor other reader) with
    | nil => rfl
    | cons row rest => rfl
  · rw [if_neg hself, Option.elim_none, filter_eraseP_of_disjoint _ (isFor_disjoint hself)]

/-! ## The reports -/

theorem file {reportable : Reportable} (hne : reportable.report.receivers ≠ []) : (post.file reportable).Shelved := by
  intro id
  rw [show (post.file reportable).reports = post.reports.create reportable from rfl, Table.get_create]
  by_cases heq : id = post.reports.nextId
  · obtain ⟨receiver, hreceiver⟩ := List.exists_mem_of_ne_nil _ hne
    rw [if_pos heq]
    refine iff_of_true rfl ⟨receiver, ?_⟩
    rw [hshelved.shelf_file, if_pos heq, Ne, List.replicate_eq_nil_iff]
    exact (List.count_pos_iff.mpr hreceiver).ne'
  · rw [if_neg heq, hshelved id]
    exact exists_congr fun user => by rw [hshelved.shelf_file, if_neg heq]

theorem showReport (reader : UserId) (other : ReportId) : (post.showReport reader other).Shelved := by
  intro id
  have hreports : (post.showReport reader other).reports = post.reports := by
    rw [Post.showReport]
    split <;> rfl
  rw [hreports, hshelved id]
  refine exists_congr fun user => not_congr ?_
  rw [hshelved.shelf_showReport, PostEvent.handling]
  split
  · cases post.shelf id user with
    | nil => exact Iff.rfl
    | cons copy copies => exact iff_of_false (List.cons_ne_nil _ _) (List.cons_ne_nil _ _)
  · exact Iff.rfl

theorem destroyReceiver (reader : UserId) (other : ReportId) : (post.destroyReceiver reader other).Shelved := by
  cases hget : post.reports.get other with
  | none =>
      rw [Post.destroyReceiver, hget]
      exact hshelved
  | some reportable =>
      have hothers : ∀ {id : ReportId}, id ≠ other → ((post.reports.get id).isSome = true ↔
          ∃ row ∈ post.receivingReports.eraseP (isFor other reader), row.report = id) := by
        intro id hne
        rw [hshelved id, exists_shelf_iff]
        refine exists_congr fun row => and_congr_left fun hrow => (List.mem_eraseP_of_neg fun hfor => ?_).symm
        exact hne (hrow ▸ (Prod.mk.inj (isFor_iff.mp hfor)).1)
      intro id
      rw [exists_shelf_iff, hshelved.receivingReports_destroyReceiver, Post.destroyReceiver, hget]
      dsimp only
      by_cases hany : post.receivingReports.any (isFor other reader) = true
      · rw [if_pos hany]
        by_cases hleft : (post.receivingReports.eraseP (isFor other reader)).any (fun row => row.report = other) = true
        · rw [if_pos hleft]
          by_cases hid : id = other
          · obtain ⟨row, hrow, hreport⟩ := List.any_eq_true.mp hleft
            exact iff_of_true (by rw [hid, hget]; rfl) ⟨row, hrow, (of_decide_eq_true hreport).trans hid.symm⟩
          · exact hothers hid
        · rw [if_neg hleft, Table.get_destroy]
          by_cases hid : id = other
          · rw [if_pos hid]
            refine iff_of_false Bool.false_ne_true fun ⟨row, hrow, hreport⟩ => hleft ?_
            exact List.any_eq_true.mpr ⟨row, hrow, decide_eq_true (hreport.trans hid)⟩
          · rw [if_neg hid]
            exact hothers hid
      · have hsame : post.receivingReports.eraseP (isFor other reader) = post.receivingReports :=
          List.eraseP_of_forall_not fun row hrow hfor => hany (List.any_eq_true.mpr ⟨row, hrow, hfor⟩)
        rw [if_neg hany, hsame, ← exists_shelf_iff]
        exact hshelved id

end Shelved

end Post

/-! ## Runs -/

section Runs

variable {w : World} {office next : Office} {event : PostEvent} {events : List PostEvent} {id : ReportId}

/-- A report that is saved has receivers. -/
theorem receivers_ne_nil {known : List UserTechnology} {draws : ReportDraws} {job : Job} {action : Act Reportable}
    {db dbNext : Db} {reportable : Reportable} (hjob : job.report w known draws = some action)
    (haction : action.run db = .ok reportable dbNext) : reportable.report.receivers ≠ [] :=
  (report_receivers hjob haction).1

theorem Office.step_shelved (hshelved : office.post.Shelved) (hstep : Office.step w office event = some next) :
    next.post.Shelved := by
  cases event with
  | play action =>
      cases hstep
      exact hshelved
  | showReport user id =>
      cases hstep
      exact hshelved.showReport user id
  | destroyReport user id =>
      cases hstep
      exact hshelved.destroyReceiver user id
  | mission known draws job =>
      obtain ⟨action, hjob, rfl⟩ := Option.map_eq_some_iff.mp hstep
      cases hrun : action.run office.db with
      | ok reportable db => exact hshelved.file (receivers_ne_nil hjob hrun)
      | error err db => exact hshelved

/-- What an event leaves a reader of a report that was saved before. -/
theorem Office.step_shelf (hshelved : office.post.Shelved) (hid : id < office.post.reports.nextId)
    (hstep : Office.step w office event = some next) (user : UserId) :
    next.post.shelf id user = (event.handling id user).elim (office.post.shelf id user)
      (Handling.apply (office.post.shelf id user)) := by
  cases event with
  | play action =>
      cases hstep
      rfl
  | showReport reader report =>
      cases hstep
      exact hshelved.shelf_showReport reader report id user
  | destroyReport reader report =>
      cases hstep
      exact hshelved.shelf_destroyReceiver reader report id user
  | mission known draws job =>
      obtain ⟨action, hjob, rfl⟩ := Option.map_eq_some_iff.mp hstep
      cases hrun : action.run office.db with
      | ok reportable db => exact (hshelved.shelf_file reportable id user).trans (if_neg hid.ne)
      | error err db => rfl

/-- A report that was saved before stays as it is as long as it is there. -/
theorem Office.step_report (hid : id < office.post.reports.nextId) (hstep : Office.step w office event = some next) :
    id < next.post.reports.nextId ∧
      (next.post.reports.get id = none ∨ next.post.reports.get id = office.post.reports.get id) := by
  cases event with
  | play action =>
      cases hstep
      exact ⟨hid, .inr rfl⟩
  | showReport reader report =>
      cases hstep
      have hsame : (office.post.showReport reader report).reports = office.post.reports := by
        rw [Post.showReport]
        split <;> rfl
      rw [hsame]
      exact ⟨hid, .inr rfl⟩
  | destroyReport reader report =>
      cases hstep
      dsimp only
      rw [Post.destroyReceiver]
      split
      · exact ⟨hid, .inr rfl⟩
      · split
        · dsimp only
          split
          · exact ⟨hid, .inr rfl⟩
          · refine ⟨hid, ?_⟩
            rw [Table.get_destroy]
            split
            · exact .inl rfl
            · exact .inr rfl
        · exact ⟨hid, .inr rfl⟩
  | mission known draws job =>
      obtain ⟨action, hjob, rfl⟩ := Option.map_eq_some_iff.mp hstep
      cases hrun : action.run office.db with
      | ok reportable db =>
          refine ⟨hid.trans (Nat.lt_succ_self _), .inr ?_⟩
          exact (Table.get_create office.post.reports reportable id).trans (if_neg hid.ne)
      | error err db => exact ⟨hid, .inr rfl⟩

theorem Handling.foldl_nil (handlings : List Handling) : handlings.foldl Handling.apply [] = [] := by
  induction handlings with
  | nil => rfl
  | cons handling handlings ih => rw [List.foldl_cons, Handling.apply_nil, ih]

/-- `index` lists a report once for each copy. -/
theorem Post.Shelved.count_index {post : Post} (hshelved : post.Shelved) (id : ReportId) (user : UserId) :
    (post.index user).count id = (post.shelf id user).length := by
  rw [Post.index, List.count_eq_countP, List.countP_map, List.countP_filter, Post.shelf, List.length_map,
    ← List.countP_eq_length_filter]
  refine List.countP_congr fun row hrow => ?_
  rw [Post.isFor_iff, Prod.mk.injEq, Function.comp_apply, Bool.and_eq_true, beq_iff_eq, decide_eq_true_eq]
  refine and_congr_right fun hid => and_iff_right ((hshelved row.report).mpr ?_)
  exact Post.exists_shelf_iff.mpr ⟨row, hrow, rfl⟩

end Runs

end Mmog

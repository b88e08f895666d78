import Mmog.Community.Outcome

/-!
# The default rank and the founder's rank

Every save of an alliance makes its default ranks anew unless their names are
taken.  An alliance keeps one default rank and one founder's rank as long as
they are saved only while both names are.
-/

namespace Mmog

open Ruby Action

namespace Community

/-! ## The invariant -/

def isStandard (alliance : AllianceId) (rank : Rank) : Bool := rank.alliance = alliance ∧ rank.standard

def isFounders (alliance : AllianceId) (rank : Rank) : Bool := rank.alliance = alliance ∧ rank.isFounder

/-- Exactly one rank of the alliance is the default one, and exactly one is the founder's. -/
def OneEach (ranks : Table Rank) (alliance : AllianceId) : Prop :=
  (ranks.select (isStandard alliance)).length = 1 ∧ (ranks.select (isFounders alliance)).length = 1

/-- Ranks belong to alliances, each of which has one of each kind. -/
structure Ranked (c : Community) : Prop where
  rooted : c.ranks.All fun rank => (c.alliances.get rank.alliance).isSome = true
  each : ∀ alliance, (c.alliances.get alliance).isSome = true → OneEach c.ranks alliance

/-- The names of the default ranks are taken. -/
def BothNamed (ranks : Table Rank) (alliance : AllianceId) : Prop :=
  Named ranks alliance (novice alliance).name ∧ Named ranks alliance (founder alliance).name

instance (ranks : Table Rank) (alliance : AllianceId) : Decidable (BothNamed ranks alliance) :=
  inferInstanceAs (Decidable (_ ∧ _))

theorem createDefaultRanks_of_named {ranks : Table Rank} {alliance : AllianceId}
    (hnamed : BothNamed ranks alliance) : createDefaultRanks ranks alliance = ranks := by
  have hnovice : createRank ranks (novice alliance) = ranks := createRank_of_named hnamed.1
  have hfounder : createRank ranks (founder alliance) = ranks := createRank_of_named hnamed.2
  rw [createDefaultRanks, hnovice, hfounder]

namespace OneEach

variable {ranks : Table Rank} {alliance : AllianceId}

/-- A change of a rank that leaves its kind as it is. -/
theorem modify (heach : OneEach ranks alliance) {id : RankId} {change : Rank → Rank}
    (hkeep : ∀ rank, ranks.get id = some rank → (change rank).alliance = rank.alliance ∧
      (change rank).standard = rank.standard ∧ (change rank).isFounder = rank.isFounder) :
    OneEach (ranks.modify id change) alliance := by
  have hstandard : (ranks.modify id change).select (isStandard alliance) = ranks.select (isStandard alliance) := by
    refine Table.select_modify_of_eq fun rank hget => ?_
    obtain ⟨halliance, hstandard, -⟩ := hkeep rank hget
    rw [isStandard, isStandard, halliance, hstandard]
  have hfounders : (ranks.modify id change).select (isFounders alliance) = ranks.select (isFounders alliance) := by
    refine Table.select_modify_of_eq fun rank hget => ?_
    obtain ⟨halliance, -, hfounder⟩ := hkeep rank hget
    rw [isFounders, isFounders, halliance, hfounder]
  rw [OneEach, hstandard, hfounders]
  exact heach

/-- A new rank that is of neither kind, or of another alliance. -/
theorem create (heach : OneEach ranks alliance) {rank : Rank}
    (hplain : rank.alliance = alliance → rank.standard = false ∧ rank.isFounder = false) :
    OneEach (ranks.create rank) alliance := by
  have htests : isStandard alliance rank = false ∧ isFounders alliance rank = false := by
    by_cases halliance : rank.alliance = alliance
    · obtain ⟨hstandard, hfounder⟩ := hplain halliance
      simp [isStandard, isFounders, hstandard, hfounder]
    · simp [isStandard, isFounders, halliance]
  rw [OneEach, Table.select_create, Table.select_create, htests.1, htests.2]
  simp only [Bool.false_eq_true, if_false, List.append_nil]
  exact heach

theorem createRank (heach : OneEach ranks alliance) {rank : Rank}
    (hplain : rank.alliance = alliance → rank.standard = false ∧ rank.isFounder = false) :
    OneEach (Community.createRank ranks rank) alliance := by
  unfold Community.createRank
  split
  · exact heach
  · exact heach.create hplain

theorem destroy (heach : OneEach ranks alliance) {id : RankId}
    (hplain : ∀ rank, ranks.get id = some rank → rank.standard = false ∧ rank.isFounder = false) :
    OneEach (ranks.destroy id) alliance := by
  have hstandard : (ranks.destroy id).select (isStandard alliance) = ranks.select (isStandard alliance) :=
    Table.select_destroy_of_not fun rank hget => by simp [isStandard, (hplain rank hget).1]
  have hfounders : (ranks.destroy id).select (isFounders alliance) = ranks.select (isFounders alliance) :=
    Table.select_destroy_of_not fun rank hget => by simp [isFounders, (hplain rank hget).2]
  rw [OneEach, hstandard, hfounders]
  exact heach

/-- An alliance without ranks gets one of each kind. -/
theorem createDefaultRanks (hunranked : ranks.All fun rank => rank.alliance ≠ alliance) :
    OneEach (Community.createDefaultRanks ranks alliance) alliance := by
  have hnone : ∀ test : Rank → Bool, (∀ rank, test rank = true → rank.alliance = alliance) →
      ranks.select test = [] := by
    intro test htest
    refine List.eq_nil_iff_forall_not_mem.mpr fun id hid => ?_
    obtain ⟨rank, hget, hrank⟩ := Table.mem_select.mp hid
    exact hunranked id rank hget (htest rank hrank)
  rw [createDefaultRanks_of_unranked hunranked, OneEach]
  simp only [Table.select_create]
  rw [hnone (isStandard alliance) fun rank h => (of_decide_eq_true h).1,
    hnone (isFounders alliance) fun rank h => (of_decide_eq_true h).1]
  simp [isStandard, isFounders, novice, founder]

end OneEach

namespace Ranked

variable {c : Community} {alliance : AllianceId}

theorem setUsers (hranked : c.Ranked) (users : Table Member) : Ranked { c with users } :=
  ⟨hranked.rooted, hranked.each⟩

theorem setRequests (hranked : c.Ranked) (requests : Table Request) : Ranked { c with requests } :=
  ⟨hranked.rooted, hranked.each⟩

/-- A save of an alliance that has both names changes no ranks. -/
theorem save (hranked : c.Ranked) (change : Alliance → Alliance) (hnamed : BothNamed c.ranks alliance) :
    Ranked { c with
      alliances := c.alliances.modify alliance change
      ranks := createDefaultRanks c.ranks alliance } := by
  rw [createDefaultRanks_of_named hnamed]
  refine ⟨fun id rank hget => ?_, fun other hlive => hranked.each other ?_⟩
  · change ((c.alliances.modify alliance change).get rank.alliance).isSome = true
    rw [isSome_modify]
    exact hranked.rooted id rank hget
  · rw [← hlive]
    exact (isSome_modify _ _ _ _).symm

/-- A rank changes within its kind. -/
theorem put (hranked : c.Ranked) {id : RankId} {old new : Rank} (hget : c.ranks.get id = some old)
    (halliance : new.alliance = old.alliance) (hstandard : new.standard = old.standard)
    (hfounder : new.isFounder = old.isFounder) : Ranked { c with ranks := c.ranks.put id new } := by
  refine ⟨hranked.rooted.modify fun rank hrank => ?_, fun other hlive =>
    (hranked.each other hlive).modify fun rank hrank => ?_⟩
  · rw [halliance]
    exact hranked.rooted id old hget
  · obtain rfl : old = rank := Option.some.inj (hget.symm.trans hrank)
    exact ⟨halliance, hstandard, hfounder⟩

theorem createRank (hranked : c.Ranked) {rank : Rank}
    (hlive : (c.alliances.get rank.alliance).isSome = true) (hstandard : rank.standard = false)
    (hfounder : rank.isFounder = false) :
    Ranked { c with ranks := Community.createRank c.ranks rank } := by
  refine ⟨fun id found hget => ?_, fun other hother =>
    (hranked.each other hother).createRank fun _ => ⟨hstandard, hfounder⟩⟩
  rcases get_createRank hget with hold | rfl
  · exact hranked.rooted id found hold
  · exact hlive

theorem destroyRank (hranked : c.Ranked) {id : RankId}
    (hplain : ∀ rank, c.ranks.get id = some rank → rank.standard = false ∧ rank.isFounder = false) :
    Ranked { c with ranks := c.ranks.destroy id } :=
  ⟨hranked.rooted.destroy id, fun other hother => (hranked.each other hother).destroy hplain⟩

/-- The default rank is passed on to another rank of the alliance. -/
theorem passOn (hranked : c.Ranked) {old id : RankId} {rank : Rank}
    (hold : c.standardRank alliance = some old) (hget : c.ranks.get id = some rank)
    (hin : rank.alliance = alliance) (hne : id ≠ old) :
    Ranked { c with
      ranks := (c.ranks.modify old fun rank => { rank with standard := false }).modify id
        fun rank => { rank with standard := true } } := by
  obtain ⟨first, hfirst, htest⟩ := Table.first_eq_some hold
  obtain ⟨hfirstin, hfirststandard⟩ := of_decide_eq_true htest
  set middle := c.ranks.modify old fun rank => { rank with standard := false } with hmiddle
  have hgetmiddle : middle.get id = some rank := by
    rw [hmiddle, Table.get_modify_of_ne _ _ hne, hget]
  have hrooted : (middle.modify id fun rank => { rank with standard := true }).All
      fun rank => (c.alliances.get rank.alliance).isSome = true := by
    refine Table.All.modify (Table.All.modify hranked.rooted fun row hrow => ?_) fun row hrow => ?_
    · exact hranked.rooted old row hrow
    · obtain rfl : rank = row := Option.some.inj (hgetmiddle.symm.trans hrow)
      exact hranked.rooted id rank hget
  refine ⟨hrooted, fun other hlive => ⟨?_, ?_⟩⟩
  · by_cases heq : other = alliance
    · subst heq
      obtain ⟨only, row, hrow, hrowtest, hone⟩ := Table.length_select_eq_one.mp (hranked.each other hlive).1
      obtain rfl : old = only := hone old first hfirst (decide_eq_true ⟨hfirstin, hfirststandard⟩)
      refine Table.length_select_eq_one.mpr
        ⟨id, _, Table.get_modify_self _ hgetmiddle, decide_eq_true ⟨hin, rfl⟩, ?_⟩
      intro found foundrow hfound hfoundtest
      by_contra hfoundne
      rw [Table.get_modify_of_ne _ _ hfoundne, hmiddle, Table.get_modify] at hfound
      split at hfound
      · obtain ⟨_, _, rfl⟩ := Option.map_eq_some_iff.mp hfound
        exact Bool.false_ne_true (of_decide_eq_true hfoundtest).2
      · rename_i hfoundold
        exact hfoundold (hone found foundrow hfound hfoundtest)
    · -- the ranks of other alliances stay
      rw [← (hranked.each other hlive).1]
      refine congrArg List.length ?_
      refine (Table.select_modify_of_eq fun row hrow => ?_).trans
        (Table.select_modify_of_eq fun row hrow => ?_)
      · obtain rfl : rank = row := Option.some.inj (hgetmiddle.symm.trans hrow)
        simp [isStandard, hin, Ne.symm heq]
      · obtain rfl : first = row := Option.some.inj (hfirst.symm.trans hrow)
        simp [isStandard, hfirstin, Ne.symm heq]
  · rw [← (hranked.each other hlive).2]
    refine congrArg List.length ?_
    refine (Table.select_modify_of_eq fun row _ => ?_).trans (Table.select_modify_of_eq fun row _ => ?_)
    · rfl
    · rfl

/-- A new alliance has one rank of each kind, with their names. -/
theorem created (hranked : c.Ranked) (name : String) (description : Option String) :
    Ranked { c with
        alliances := c.alliances.create { name, description }
        ranks := createDefaultRanks c.ranks c.alliances.nextId } ∧
      BothNamed (createDefaultRanks c.ranks c.alliances.nextId) c.alliances.nextId := by
  have hfresh : c.alliances.get c.alliances.nextId = none := c.alliances.fresh _ (le_refl _)
  have hunranked : c.ranks.All fun rank => rank.alliance ≠ c.alliances.nextId := by
    intro id rank hget hrank
    have hsome : (c.alliances.get rank.alliance).isSome = true := hranked.rooted id rank hget
    rw [hrank, hfresh] at hsome
    cases hsome
  have heach := OneEach.createDefaultRanks hunranked
  have hgets := createDefaultRanks_of_unranked hunranked
  refine ⟨⟨?_, fun other hother => ?_⟩, ?_⟩
  · rw [hgets]
    have hself : ((c.alliances.create { name, description }).get c.alliances.nextId).isSome = true := by
      rw [Table.get_create_self]
      rfl
    have hold : c.ranks.All fun rank =>
        ((c.alliances.create { name, description }).get rank.alliance).isSome = true := by
      intro id rank hget
      obtain ⟨row, hrow⟩ := Option.isSome_iff_exists.mp (hranked.rooted id rank hget)
      rw [Table.get_create_of_some _ hrow]
      rfl
    exact Table.All.create (Table.All.create hold hself) hself
  · by_cases heq : other = c.alliances.nextId
    · exact heq ▸ heach
    · rw [Table.get_create, if_neg heq] at hother
      change OneEach (createDefaultRanks c.ranks c.alliances.nextId) other
      rw [hgets]
      exact ((hranked.each other hother).create fun hin => absurd hin.symm heq).create
        fun hin => absurd hin.symm heq
  · rw [hgets]
    exact ⟨named_of_get (Table.get_create_of_some _ (Table.get_create_self _ _)),
      named_of_get (Table.get_create_self _ _)⟩

/-! ## Methods -/

/-- An alliance that has both names is saved. -/
theorem saved (hranked : c.Ranked) (change : Alliance → Alliance) (hnamed : BothNamed c.ranks alliance) :
    (after ((Alliance.save alliance change).run c)).Ranked :=
  hranked.save change hnamed

theorem addUser (alliance : AllianceId) (user : UserId) :
    Safe (fun c => c.Ranked ∧ BothNamed c.ranks alliance) (Alliance.addUser alliance user) anything := by
  rintro c ⟨hranked, hnamed⟩
  refine ⟨?_, fun _ _ => trivial⟩
  rcases Alliance.addUser_outcome c alliance user with hsame | ⟨-, -, hstuck⟩ | ⟨standard, -, -, hjoined⟩
  · rw [hsame]
    exact ⟨hranked, hnamed⟩
  · rw [hstuck]
    exact ⟨hranked.setUsers _, hnamed⟩
  · rw [hjoined]
    refine ⟨(hranked.save _ hnamed).setUsers _, ?_⟩
    change BothNamed (createDefaultRanks c.ranks alliance) alliance
    rw [createDefaultRanks_of_named hnamed]
    exact hnamed

theorem setFounder (alliance : AllianceId) (newfounder : UserId) :
    Safe Ranked (Alliance.setFounder alliance newfounder none) anything := by
  intro c hranked
  refine ⟨?_, fun _ _ => trivial⟩
  rw [Alliance.setFounder_first]
  cases c.founderRank alliance with
  | none => exact hranked
  | some founder => exact hranked.setUsers _

theorem create (hranked : c.Ranked) (currentUser : UserId) (name description : Option String) :
    (after ((AlliancesController.create currentUser name description).run c)).Ranked := by
  rw [AlliancesController.create, run_bind_get]
  dsimp only
  split
  · cases name with
    | none => exact hranked
    | some name =>
        dsimp only
        split
        · exact hranked
        · rw [run_bind_modify]
          obtain ⟨hcreated, hnamed⟩ := hranked.created name description
          refine (addUser c.alliances.nextId currentUser).after_bind ⟨hcreated, hnamed⟩
            (fun _ hnext => hnext.1) ?_
          intro added next _ hnext
          cases added with
          | false => exact hnext.1
          | true => exact (setFounder _ currentUser).after hnext.1
  · exact hranked

theorem changeDefaultRank (currentUser : UserId) (alliance : AllianceId) (id : RankId) :
    Safe Ranked (AlliancesController.changeDefaultRank currentUser alliance id) anything := by
  refine setAlliance_safe fun c hc => ⟨?_, fun _ _ => trivial⟩
  rw [run_bind_get]
  split
  · rw [after_bind_pure]
    rcases Alliance.changeDefaultRank_outcome c alliance (c.rankById alliance id) with hsame |
      ⟨old, new, row, hold, hnew, hrow, hne, -, hpassed⟩
    · rw [hsame]
      exact hc
    · obtain ⟨rfl, row', hrow', hin⟩ := rankById_eq_some.mp hnew
      obtain rfl : row = row' := Option.some.inj (hrow.symm.trans hrow')
      rw [hpassed]
      exact ⟨hc.1.passOn hold hrow hin hne, hc.2⟩
  · exact hc

theorem rankCreate (currentUser : UserId) (params : RankParams) :
    Safe Ranked (RanksController.create currentUser params) anything := by
  intro c hranked
  refine ⟨?_, fun _ _ => trivial⟩
  rw [RanksController.create, run_bind_get]
  cases halliance : c.allianceOf currentUser with
  | none => exact hranked
  | some alliance =>
      obtain ⟨-, -, -, hlive⟩ := allianceOf_eq_some.mp halliance
      dsimp only
      split
      · exact hranked.createRank hlive rfl rfl
      · exact hranked

/-- An update changes neither the alliance nor the kind of a rank. -/
theorem rankUpdate (currentUser : UserId) (id : RankId) (params : RankParams) :
    Safe Ranked (RanksController.update currentUser id params) anything := by
  intro c hranked
  refine ⟨?_, fun _ _ => trivial⟩
  rw [RanksController.update, run_bind_get]
  cases hget : c.ranks.get id with
  | none => exact hranked
  | some rank =>
      dsimp only
      split
      · cases c.allianceOf currentUser with
        | none => exact hranked
        | some alliance =>
            dsimp only
            -- the founder's rank, and the others
            split
            · split
              · exact hranked.put hget rfl rfl rfl
              · exact hranked
            · split
              · exact hranked.put hget rfl rfl rfl
              · exact hranked
      · exact hranked

/-- Only a rank of neither kind is destroyed. -/
theorem rankDestroy (currentUser : UserId) (id : RankId) :
    Safe Ranked (RanksController.destroy currentUser id) anything := by
  intro c hranked
  refine ⟨?_, fun _ _ => trivial⟩
  rw [RanksController.destroy, run_bind_get]
  cases hget : c.ranks.get id with
  | none => exact hranked
  | some rank =>
      dsimp only
      split
      · cases c.allianceOfRank rank with
        | none => exact hranked
        | some alliance =>
            dsimp only
            split
            · rename_i hallowed
              have hplain : rank.standard = false ∧ rank.isFounder = false := by
                simpa using hallowed.2
              refine Safe.after_bind (I := fun next : Community => next.Ranked ∧ next.ranks.get id = some rank)
                (φ := anything) (Safe.forM (φ := anything) fun user _ => ?_) ⟨hranked, hget⟩
                (fun _ hnext => hnext.1) ?_
              · cases c.standardRank alliance with
                | none => exact Safe.throw _ _
                | some standard => exact Safe.modify fun next hnext => ⟨hnext.1.setUsers _, hnext.2⟩
              intro _ next _ hnext
              refine hnext.1.destroyRank fun found hfound => ?_
              obtain rfl : rank = found := Option.some.inj (hnext.2.symm.trans hfound)
              exact hplain
            · exact hranked
      · exact hranked

end Ranked

/-! ## Runs -/

/-- The alliance that an event saves, if it is there. -/
def saves (c : Community) : CommunityEvent → Option AllianceId
  | .request (some user) (.changeDescription alliance _) =>
      if c.permission? alliance user .changeDescription then some alliance else none
  | .call (.addScore user _) => c.allianceOf user
  | .call (.addAllianceScore alliance _) => some alliance
  | .call (.setDescription alliance _) => some alliance
  | _ => none

/-- An alliance that is there and is saved has ranks with both names. -/
def KeepsNames (c : Community) (event : CommunityEvent) : Prop :=
  ∀ alliance ∈ c.saves event, (c.alliances.get alliance).isSome = true → BothNamed c.ranks alliance

instance (c : Community) (event : CommunityEvent) : Decidable (c.KeepsNames event) :=
  inferInstanceAs (Decidable (∀ alliance ∈ c.saves event, _))

end Community

/-- Founding an alliance, its ranks, its description and its score. -/
def CommunityEvent.isRanking : CommunityEvent → Bool
  | .request _ (.createAlliance _ _) => true
  | .request _ (.changeDefaultRank _ _) => true
  | .request _ (.changeDescription _ _) => true
  | .request _ (.createRank _) => true
  | .request _ (.updateRank _ _) => true
  | .request _ (.destroyRank _) => true
  | .call (.addScore _ _) => true
  | .call (.addAllianceScore _ _) => true
  | .call (.setDescription _ _) => true
  | _ => false

namespace Community

variable {c : Community}

theorem Fresh.ranked (hfresh : c.Fresh) : c.Ranked where
  rooted id rank hget := by
    rw [hfresh.ranks id] at hget
    cases hget
  each alliance hlive := by
    rw [hfresh.alliances alliance] at hlive
    cases hlive

namespace Ranked

theorem changeDescription (hranked : c.Ranked) {currentUser : UserId} {alliance : AllianceId}
    {description : Option String}
    (hkeeps : c.KeepsNames (.request (some currentUser) (.changeDescription alliance description))) :
    (after ((AlliancesController.changeDescription currentUser alliance description).run c)).Ranked := by
  refine after_setAlliance hranked fun hlive => ?_
  rw [run_bind_get]
  split
  · rename_i hallowed
    exact hranked.saved _ (hkeeps alliance (by rw [saves, if_pos hallowed]; rfl) hlive)
  · exact hranked

theorem addScore (hranked : c.Ranked) {user : UserId} {value : ℤ}
    (hkeeps : c.KeepsNames (.call (.addScore user value))) :
    (after ((Member.addScore user value).run c)).Ranked := by
  rw [Member.addScore, run_bind_get]
  cases halliance : c.allianceOf user with
  | none => exact hranked.setUsers _
  | some alliance =>
      obtain ⟨-, -, -, hlive⟩ := allianceOf_eq_some.mp halliance
      exact (hranked.saved _ (hkeeps alliance halliance hlive)).setUsers _

theorem perform (hranked : c.Ranked) {event : CommunityEvent} (hranking : event.isRanking = true)
    (hkeeps : c.KeepsNames event) : (after (event.perform.run c)).Ranked := by
  cases event with
  | signUp alliance => cases hranking
  | call method =>
      cases method with
      | addScore user value => exact hranked.addScore hkeeps
      | addAllianceScore alliance value =>
          exact after_setAlliance hranked fun hlive => hranked.saved _ (hkeeps alliance rfl hlive)
      | setDescription alliance description =>
          exact after_setAlliance hranked fun hlive => hranked.saved _ (hkeeps alliance rfl hlive)
      | addUser | removeUser | setFounder | changeUserRank | endFriendship => cases hranking
  | request session asked =>
      cases session with
      | none => exact hranked
      | some user =>
          unfold CommunityEvent.perform
          rw [run_bind_get]
          split
          · cases asked with
            | createAlliance name description => exact hranked.create user name description
            | changeDefaultRank alliance rank =>
                exact (Ranked.changeDefaultRank user alliance rank).after hranked
            | changeDescription alliance description => exact hranked.changeDescription hkeeps
            | createRank params => exact (rankCreate user params).after hranked
            | updateRank rank params => exact (rankUpdate user rank params).after hranked
            | destroyRank rank => exact (rankDestroy user rank).after hranked
            | changeFounder | changeUserRank | removeUser | leave | destroyAlliance | createRequest
            | reaction | destroyRelationship => cases hranking
          · exact hranked

end Ranked

/-- As long as alliances are saved only while both names are taken, every alliance has one default
rank and one founder's rank. -/
theorem one_rank_of_each_kind {start final : Community} {events : List CommunityEvent}
    (hfresh : start.Fresh) (hranking : ∀ event ∈ events, event.isRanking = true)
    (hkeeps : Along CommunityEvent.step KeepsNames start events)
    (hrun : run CommunityEvent.step start events = some final) (alliance : AllianceId)
    (hlive : (final.alliances.get alliance).isSome = true) : OneEach final.ranks alliance := by
  have hranked : final.Ranked := by
    refine run_keeps Ranked ?_ hfresh.ranked ((along_of_forall hranking).and hkeeps) hrun
    intro c event next hranked hevent hstep
    cases hstep
    exact hranked.perform hevent.1 hevent.2
  exact hranked.each alliance hlive

/-- The founder makes a rank, renames it and makes it the default one; then the score changes. -/
def promoted : List CommunityEvent :=
  [.request (some 1) (.createAlliance (some "Orion") none),
    .request (some 1) (.createRank { name := some "Pilot", canInvite := some true }),
    .request (some 1) (.updateRank 3 { name := some "Kapitän" }),
    .request (some 1) (.changeDefaultRank 1 3), .call (.addScore 1 5)]

theorem one_rank_of_each_kind_sample : ∃ final,
    run CommunityEvent.step sampleCommunity promoted = some final ∧ OneEach final.ranks 1 := by
  let final := (run CommunityEvent.step sampleCommunity promoted).get (by decide)
  have hrun : run CommunityEvent.step sampleCommunity promoted = some final :=
    (Option.some_get _).symm
  exact ⟨final, hrun, one_rank_of_each_kind sampleCommunity_fresh (by decide) (by decide +kernel) hrun 1
    (by decide +kernel)⟩

/-- The founder renames the default rank, and the next score makes a second one. -/
def renamed : List CommunityEvent :=
  [.request (some 1) (.createAlliance (some "Orion") none),
    .request (some 1) (.updateRank 1 { name := some "Rekrut" }), .call (.addScore 1 5)]

theorem renamed_rank_returns :
    ¬ ∀ (start final : Community) (events : List CommunityEvent), start.Fresh →
      (∀ event ∈ events, event.isRanking = true) →
      run CommunityEvent.step start events = some final → ∀ alliance,
        (final.alliances.get alliance).isSome = true → OneEach final.ranks alliance := by
  intro hall
  let final := (run CommunityEvent.step sampleCommunity renamed).get (by decide)
  have heach := hall sampleCommunity final renamed sampleCommunity_fresh (by decide)
    (Option.some_get _).symm 1 (by decide +kernel)
  have htwo : (final.ranks.select (isStandard 1)).length = 2 := by decide +kernel
  exact absurd (heach.1.symm.trans htwo) (by decide)

end Community

end Mmog

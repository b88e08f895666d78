import Mmog.Community.Outcome

/-!
# The score of an alliance

An alliance's score goes up and down with its members' and with who is a
member, so that it stays the sum of its members' scores.
-/

namespace Mmog

open Ruby Action Community

/-! ## The invariant -/

/-- What a user adds to the score of an alliance. -/
def Member.worth (alliance : AllianceId) (member : Member) : ℤ :=
  if member.alliance = some alliance then member.score else 0

/-- Everybody in an alliance has a rank, every alliance has a default rank, and its score is
the sum of its members' scores. -/
structure Community.Scored (c : Community) : Prop where
  rooted : c.ranks.All fun rank => (c.alliances.get rank.alliance).isSome = true
  housed : c.users.All fun member => ∀ alliance, member.alliance = some alliance →
    (c.alliances.get alliance).isSome = true ∧
      ∃ id rank, member.rank = some id ∧ c.ranks.get id = some rank
  standing : ∀ alliance, (c.alliances.get alliance).isSome = true →
    ∃ id rank, c.ranks.get id = some rank ∧ rank.alliance = alliance ∧ rank.standard = true
  sums : ∀ alliance row, c.alliances.get alliance = some row →
    row.score = c.users.total (Member.worth alliance)

namespace Community

variable {c : Community} {self : AllianceId} {user : UserId}

theorem exists_standardRank
    (hstanding : ∃ id rank, c.ranks.get id = some rank ∧ rank.alliance = self ∧ rank.standard = true) :
    ∃ id rank, c.standardRank self = some id ∧ c.ranks.get id = some rank := by
  obtain ⟨id, rank, hget, halliance, hstandard⟩ := hstanding
  cases hfirst : c.standardRank self with
  | none =>
      have hfalse := Table.first_eq_none.mp hfirst id rank hget
      simp [halliance, hstandard] at hfalse
  | some first =>
      obtain ⟨row, hrow, -⟩ := Table.first_eq_some hfirst
      exact ⟨first, row, rfl, hrow⟩

end Community

namespace Community.Scored

variable {c : Community} {self : AllianceId} {user : UserId}

theorem giveRank (hscored : c.Scored) {id : RankId} {rank : Rank} (hget : c.ranks.get id = some rank)
    (user : UserId) : (c.giveRank id user).Scored where
  rooted := hscored.rooted
  housed := hscored.housed.modify fun member hmember alliance halliance =>
    ⟨(hscored.housed user member hmember alliance halliance).1, id, rank, rfl, hget⟩
  standing := hscored.standing
  sums alliance row hrow := by
    rw [hscored.sums alliance row hrow]
    exact (Table.total_modify_of_eq c.users user (fun member => { member with rank := some id }) _
      fun _ _ => rfl).symm

/-- Saving an alliance makes ranks, which keeps the ranks of its members. -/
theorem of_save {users : Table Member} {alliances : Table Alliance} (hscored : c.Scored)
    (hself : (c.alliances.get self).isSome = true)
    (hlive : ∀ alliance, (alliances.get alliance).isSome = (c.alliances.get alliance).isSome)
    (hhoused : users.All fun member => ∀ alliance, member.alliance = some alliance →
      (c.alliances.get alliance).isSome = true ∧
        ∃ id rank, member.rank = some id ∧ c.ranks.get id = some rank)
    (hsums : ∀ alliance row, alliances.get alliance = some row →
      row.score = users.total (Member.worth alliance)) :
    Scored { c with users, alliances, ranks := createDefaultRanks c.ranks self } where
  rooted id rank hrank := by
    change (alliances.get rank.alliance).isSome = true
    rw [hlive]
    rcases get_createDefaultRanks hrank with hold | rfl | rfl
    · exact hscored.rooted id rank hold
    · exact hself
    · exact hself
  housed user member hmember alliance halliance := by
    obtain ⟨hsome, id, rank, hid, hrank⟩ := hhoused user member hmember alliance halliance
    exact ⟨by rw [hlive]; exact hsome, id, rank, hid, createDefaultRanks_of_some self hrank⟩
  standing alliance hsome := by
    obtain ⟨id, rank, hrank, hrest⟩ := hscored.standing alliance (by rw [← hlive]; exact hsome)
    exact ⟨id, rank, createDefaultRanks_of_some self hrank, hrest⟩
  sums := hsums

/-- A score that changes with the worth of one user stays the sum. -/
theorem sums_of_worth (hscored : c.Scored) {change : Member → Member} {value : ℤ}
    (hself : ∀ member, c.users.get user = some member →
      (change member).worth self = member.worth self + value)
    (hmissing : c.users.get user = none → value = 0)
    (hothers : ∀ member alliance, c.users.get user = some member → alliance ≠ self →
      (change member).worth alliance = member.worth alliance)
    {alliance : AllianceId} {row : Alliance}
    (hrow : (c.alliances.modify self fun row => { row with score := row.score + value }).get alliance =
      some row) : row.score = (c.users.modify user change).total (Member.worth alliance) := by
  cases hget : c.users.get user with
  | none =>
      rw [Table.modify_of_none _ hget]
      rw [Table.get_modify] at hrow
      split at hrow
      · obtain ⟨old, hold, rfl⟩ := Option.map_eq_some_iff.mp hrow
        rw [hmissing hget, ← hscored.sums alliance old hold]
        exact add_zero _
      · exact hscored.sums alliance row hrow
  | some member =>
      rw [Table.total_modify _ _ hget]
      rw [Table.get_modify] at hrow
      split at hrow
      · rename_i heq
        obtain ⟨old, hold, rfl⟩ := Option.map_eq_some_iff.mp hrow
        rw [heq, hself member hget, ← heq, ← hscored.sums alliance old hold]
        dsimp only
        omega
      · rename_i hne
        rw [hothers member alliance hget hne, ← hscored.sums alliance row hrow]
        omega

theorem joined (hscored : c.Scored) (hself : (c.alliances.get self).isSome = true)
    (hnone : c.allianceOf user = none) {standard : RankId} {rank : Rank}
    (hget : c.ranks.get standard = some rank) : (c.joined self standard user).Scored := by
  have hunhoused : ∀ member, c.users.get user = some member → member.alliance = none := by
    intro member hmember
    cases halliance : member.alliance with
    | none => rfl
    | some alliance =>
        have hsome := allianceOf_eq_some.mpr ⟨member, hmember, halliance,
          (hscored.housed user member hmember alliance halliance).1⟩
        rw [hnone] at hsome
        cases hsome
  refine hscored.of_save hself (isSome_modify _ _ _) ?_ fun alliance row hrow => ?_
  · refine hscored.housed.modify fun member hmember alliance halliance => ?_
    cases halliance
    exact ⟨hself, standard, rank, rfl, hget⟩
  · refine hscored.sums_of_worth (fun member hmember => ?_) (fun hmissing => ?_)
      (fun member alliance hmember hne => ?_) hrow
    · simp [Member.worth, hunhoused member hmember, scoreOf_eq hmember]
    · rw [scoreOf, hmissing]
      rfl
    · simp [Member.worth, hunhoused member hmember, hne.symm]

theorem left (hscored : c.Scored) (hmember : c.allianceOf user = some self) :
    (c.left self user).Scored := by
  obtain ⟨member, hget, halliance, hself⟩ := allianceOf_eq_some.mp hmember
  refine hscored.of_save hself (isSome_modify _ _ _) ?_ fun alliance row hrow => ?_
  · exact hscored.housed.modify fun _ _ _ hnone => absurd hnone.symm (Option.some_ne_none _)
  · refine hscored.sums_of_worth (fun member' hmember' => ?_) (fun hmissing => ?_)
      (fun member' alliance hmember' hne => ?_) hrow
    · obtain rfl : member = member' := Option.some.inj (hget.symm.trans hmember')
      simp [Member.worth, halliance, scoreOf_eq hget]
    · rw [hget] at hmissing
      cases hmissing
    · obtain rfl : member = member' := Option.some.inj (hget.symm.trans hmember')
      simp [Member.worth, halliance, hne.symm]

end Community.Scored

/-! ## Methods -/

section Methods

/-- The invariant, and the alliance is there. -/
def ScoredWith (alliance : AllianceId) (c : Community) : Prop :=
  c.Scored ∧ (c.alliances.get alliance).isSome = true

variable {alliance : AllianceId}

namespace ScoredWith

variable {c : Community} {user : UserId}

theorem giveRank (hscored : ScoredWith alliance c) {id : RankId} {rank : Rank}
    (hget : c.ranks.get id = some rank) (user : UserId) : ScoredWith alliance (c.giveRank id user) :=
  ⟨hscored.1.giveRank hget user, hscored.2⟩

theorem addUser (alliance : AllianceId) (user : UserId) :
    Safe (ScoredWith alliance) (Alliance.addUser alliance user) anything := by
  rintro c ⟨hscored, hlive⟩
  refine ⟨?_, fun _ _ => trivial⟩
  obtain ⟨id, rank, hid, hget⟩ := exists_standardRank (hscored.standing alliance hlive)
  rcases Alliance.addUser_outcome c alliance user with hsame | ⟨-, hstandard, -⟩ |
    ⟨standard, hnone, hstandard, hjoined⟩
  · rw [hsame]
    exact ⟨hscored, hlive⟩
  · rw [hid] at hstandard
    cases hstandard
  · obtain rfl : id = standard := Option.some.inj (hid.symm.trans hstandard)
    rw [hjoined]
    exact ⟨hscored.joined hlive hnone hget, by rw [← hlive]; exact isSome_modify _ _ _ _⟩

theorem removeUser (alliance : AllianceId) (user : UserId) :
    Safe (ScoredWith alliance) (Alliance.removeUser alliance user) anything := by
  rintro c ⟨hscored, hlive⟩
  refine ⟨?_, fun _ _ => trivial⟩
  rcases Alliance.removeUser_outcome c alliance user with hsame | ⟨hmember, hrank, -⟩ |
    ⟨id, rank, hmember, -, hleft⟩
  · rw [hsame]
    exact ⟨hscored, hlive⟩
  · obtain ⟨member, hget, halliance, -⟩ := allianceOf_eq_some.mp hmember
    obtain ⟨-, id, rank, hid, hrow⟩ := hscored.housed user member hget alliance halliance
    rw [rankOf_eq_some.mpr ⟨member, hget, hid, hrow⟩] at hrank
    cases hrank
  · rw [hleft]
    exact ⟨hscored.left hmember, by rw [← hlive]; exact isSome_modify _ _ _ _⟩

theorem setFounder (alliance : AllianceId) (newfounder : UserId) (oldfounder : Option UserId) :
    Safe (ScoredWith alliance) (Alliance.setFounder alliance newfounder oldfounder) anything := by
  intro c hscored
  refine ⟨?_, fun _ _ => trivial⟩
  have hfounder : ∀ founder, c.founderRank alliance = some founder →
      ∃ rank, c.ranks.get founder = some rank := fun founder hfirst => by
    obtain ⟨rank, hget, -⟩ := Table.first_eq_some hfirst
    exact ⟨rank, hget⟩
  cases oldfounder with
  | none =>
      rw [Alliance.setFounder_first]
      cases hfirst : c.founderRank alliance with
      | none => exact hscored
      | some founder =>
          obtain ⟨rank, hget⟩ := hfounder founder hfirst
          exact hscored.giveRank hget newfounder
  | some oldfounder =>
      cases hrank : c.rankOf newfounder with
      | none =>
          rw [Alliance.setFounder_of_none hrank]
          exact hscored
      | some found =>
          obtain ⟨given, rank⟩ := found
          obtain ⟨-, -, -, hgiven⟩ := rankOf_eq_some.mp hrank
          rw [Alliance.setFounder_of_rank hrank]
          cases hfirst : c.founderRank alliance with
          | none => exact hscored.giveRank hgiven oldfounder
          | some founder =>
              obtain ⟨row, hget⟩ := hfounder founder hfirst
              exact (hscored.giveRank hgiven oldfounder).giveRank hget newfounder

end ScoredWith

end Methods

namespace Community.Scored

theorem setRequests {c : Community} (hscored : c.Scored) (requests : Table Request) :
    Scored { c with requests } :=
  ⟨hscored.rooted, hscored.housed, hscored.standing, hscored.sums⟩

theorem setRelationships {c : Community} (hscored : c.Scored) (relationships : Table Relationship) :
    Scored { c with relationships } :=
  ⟨hscored.rooted, hscored.housed, hscored.standing, hscored.sums⟩

theorem changeUserRank (user : Option UserId) (rank : Option RankId) :
    Safe Scored (Alliance.changeUserRank user rank) anything := by
  intro c hscored
  refine ⟨?_, fun _ _ => trivial⟩
  rcases Alliance.changeUserRank_outcome c user rank with hsame | ⟨member, id, row, -, -, hget, -, -, hgiven⟩
  · rw [hsame]
    exact hscored
  · rw [hgiven]
    exact hscored.giveRank hget member

/-- A member's score counts for the alliance as well; another user's counts for none. -/
theorem addScore (user : UserId) (value : ℤ) : Safe Scored (Member.addScore user value) anything := by
  intro c hscored
  refine ⟨?_, fun _ _ => trivial⟩
  have hhoused : (c.users.modify user fun member => { member with score := member.score + value }).All
      fun member => ∀ alliance, member.alliance = some alliance →
        (c.alliances.get alliance).isSome = true ∧
          ∃ id rank, member.rank = some id ∧ c.ranks.get id = some rank :=
    hscored.housed.modify fun member hmember => hscored.housed user member hmember
  rw [Member.addScore, run_bind_get]
  cases halliance : c.allianceOf user with
  | none =>
      refine ⟨hscored.rooted, hhoused, hscored.standing, fun alliance row hrow => ?_⟩
      have hrow : c.alliances.get alliance = some row := hrow
      rw [hscored.sums alliance row hrow]
      refine (Table.total_modify_of_eq c.users user
        (fun member => { member with score := member.score + value }) _ fun member hmember => ?_).symm
      have hne : member.alliance ≠ some alliance := by
        intro hin
        rw [allianceOf_eq_some.mpr ⟨member, hmember, hin, by rw [hrow]; rfl⟩] at halliance
        cases halliance
      rw [Member.worth, Member.worth, if_neg hne, if_neg hne]
  | some self =>
      obtain ⟨member, hget, hin, hself⟩ := allianceOf_eq_some.mp halliance
      refine hscored.of_save hself (isSome_modify _ _ _) hhoused fun alliance row hrow => ?_
      refine hscored.sums_of_worth (fun member' hmember' => ?_) (fun hmissing => ?_)
        (fun member' alliance hmember' hne => ?_) hrow
      · obtain rfl : member = member' := Option.some.inj (hget.symm.trans hmember')
        simp [Member.worth, hin]
      · rw [hget] at hmissing
        cases hmissing
      · obtain rfl : member = member' := Option.some.inj (hget.symm.trans hmember')
        simp [Member.worth, hin, hne.symm]

/-- A new alliance has the default ranks and no members. -/
theorem createAlliance {c : Community} (hscored : c.Scored) (name : String) (description : Option String) :
    ScoredWith c.alliances.nextId { c with
      alliances := c.alliances.create { name, description }
      ranks := createDefaultRanks c.ranks c.alliances.nextId } := by
  have hfresh : c.alliances.get c.alliances.nextId = none := c.alliances.fresh _ (le_refl _)
  have hlive : ∀ alliance, (c.alliances.get alliance).isSome = true →
      ((c.alliances.create { name, description }).get alliance).isSome = true := by
    intro alliance hsome
    obtain ⟨row, hrow⟩ := Option.isSome_iff_exists.mp hsome
    rw [Table.get_create_of_some _ hrow]
    rfl
  have hunranked : c.ranks.All fun rank => rank.alliance ≠ c.alliances.nextId := by
    intro id rank hget hrank
    have hsome : (c.alliances.get rank.alliance).isSome = true := hscored.rooted id rank hget
    rw [hrank, hfresh] at hsome
    cases hsome
  have hself : ((c.alliances.create { name, description }).get c.alliances.nextId).isSome = true := by
    rw [Table.get_create_self]
    rfl
  refine ⟨⟨fun id rank hrank => ?_, fun user member hmember alliance hin => ?_, fun alliance hsome => ?_,
    fun alliance row hrow => ?_⟩, hself⟩
  · rcases get_createDefaultRanks hrank with hold | rfl | rfl
    · exact hlive _ (hscored.rooted id rank hold)
    · exact hself
    · exact hself
  · obtain ⟨hsome, id, rank, hid, hrank⟩ := hscored.housed user member hmember alliance hin
    exact ⟨hlive alliance hsome, id, rank, hid, createDefaultRanks_of_some _ hrank⟩
  · by_cases heq : alliance = c.alliances.nextId
    · subst heq
      refine ⟨c.ranks.nextId, novice c.alliances.nextId, ?_, rfl, rfl⟩
      change (createDefaultRanks c.ranks c.alliances.nextId).get c.ranks.nextId = _
      rw [createDefaultRanks_of_unranked hunranked]
      exact Table.get_create_of_some _ (Table.get_create_self _ _)
    · obtain ⟨id, rank, hrank, hrest⟩ := hscored.standing alliance (by
        rw [Table.get_create, if_neg heq] at hsome
        exact hsome)
      exact ⟨id, rank, createDefaultRanks_of_some _ hrank, hrest⟩
  · rw [Table.get_create] at hrow
    split at hrow
    · rename_i heq
      cases hrow
      refine (Finset.sum_eq_zero fun user _ => ?_).symm
      cases hmember : c.users.get user with
      | none => rfl
      | some member =>
          have hne : member.alliance ≠ some alliance := by
            intro hin
            have hsome := (hscored.housed user member hmember alliance hin).1
            rw [heq, hfresh] at hsome
            cases hsome
          exact if_neg hne
    · exact hscored.sums alliance row hrow

theorem create (currentUser : UserId) (name description : Option String) :
    Safe Scored (AlliancesController.create currentUser name description) anything := by
  intro c hscored
  refine ⟨?_, fun _ _ => trivial⟩
  rw [AlliancesController.create, run_bind_get]
  dsimp only
  split
  · cases name with
    | none => exact hscored
    | some name =>
        dsimp only
        split
        · exact hscored
        · rw [run_bind_modify]
          have hrest : Safe (ScoredWith c.alliances.nextId) (do
              if ← Alliance.addUser c.alliances.nextId currentUser then
                Alliance.setFounder c.alliances.nextId currentUser none) anything := by
            refine (ScoredWith.addUser _ currentUser).bind fun added _ => Safe.ite (fun _ => ?_) fun _ => ?_
            · exact ScoredWith.setFounder _ currentUser none
            · exact Safe.pure trivial
          exact (hrest.after (hscored.createAlliance name description)).1
  · exact hscored

theorem makeFriendship (self other : UserId) : Safe Scored (Member.makeFriendship self other) anything := by
  refine (Safe.modify fun c hscored => ?_).bind fun _ _ => Safe.modify fun c hscored => ?_
  · exact hscored.setRelationships _
  · exact hscored.setRelationships _

/-! ## Requests -/

theorem changeFounder (currentUser : UserId) (alliance : AllianceId) (uid : UserId) :
    Safe Scored (AlliancesController.changeFounder currentUser alliance uid) anything := by
  refine setAlliance_safe (Safe.get.bind fun c _ => ?_)
  cases c.memberById alliance uid with
  | none => exact Safe.throw _ _
  | some newFounder =>
      exact Safe.ite (fun _ => ScoredWith.setFounder alliance newFounder (some currentUser))
        fun _ => Safe.pure trivial

theorem changeUserRank_request (currentUser : UserId) (alliance : AllianceId) (uid : UserId) (rank : RankId) :
    Safe Scored (AlliancesController.changeUserRank currentUser alliance uid rank) anything := by
  have hkeeps : ∀ member id, Safe (fun c => c.Scored ∧ (c.alliances.get alliance).isSome = true)
      (Alliance.changeUserRank member id) anything := by
    rintro member id c ⟨hscored, hlive⟩
    refine ⟨⟨(changeUserRank member id).after hscored, ?_⟩, fun _ _ => trivial⟩
    rcases Alliance.changeUserRank_outcome c member id with hsame | ⟨_, _, _, -, -, -, -, -, hgiven⟩
    · rw [hsame]
      exact hlive
    · rw [hgiven]
      exact hlive
  refine setAlliance_safe (Safe.get.bind fun c _ => Safe.ite (fun _ => ?_) fun _ => Safe.pure trivial)
  exact (hkeeps _ _).bind fun _ _ => Safe.pure trivial

theorem removeUser (currentUser : UserId) (alliance : AllianceId) (uid : UserId) :
    Safe Scored (AlliancesController.removeUser currentUser alliance uid) anything := by
  refine setAlliance_safe (Safe.get.bind fun c _ => Safe.ite (fun _ => ?_) fun _ => Safe.pure trivial)
  cases c.memberById alliance uid with
  | none => exact Safe.throw _ _
  | some user => exact (ScoredWith.removeUser alliance user).bind fun _ _ => Safe.pure trivial

theorem leave (currentUser : UserId) (alliance : AllianceId) :
    Safe Scored (AlliancesController.leave currentUser alliance) anything := by
  refine setAlliance_safe (Safe.get.bind fun c _ => Safe.ite (fun _ => ?_) fun _ => Safe.pure trivial)
  refine (ScoredWith.removeUser alliance currentUser).bind fun removed _ =>
    Safe.ite (fun _ => ?_) fun _ => Safe.pure trivial
  exact Safe.modify fun c hc => ⟨hc.1.setRequests _, hc.2⟩

end Community.Scored

/-! ## Runs -/

/-- Founding, joining, leaving, the change of founders and ranks, and scores. -/
def CommunityEvent.isMembership : CommunityEvent → Bool
  | .request _ (.createAlliance _ _) => true
  | .request _ (.changeFounder _ _) => true
  | .request _ (.changeUserRank _ _ _) => true
  | .request _ (.removeUser _ _) => true
  | .request _ (.leave _) => true
  | .request _ (.createRequest _ _ _) => true
  | .request _ (.reaction _ _) => true
  | .call (.addScore _ _) => true
  | .call (.addUser _ _) => true
  | .call (.removeUser _ _) => true
  | .call (.setFounder _ _ _) => true
  | .call (.changeUserRank _ _) => true
  | _ => false

namespace Community

theorem Fresh.scored {c : Community} (hfresh : c.Fresh) : c.Scored where
  rooted id rank hrank := by
    rw [hfresh.ranks id] at hrank
    cases hrank
  housed user member hmember alliance halliance := by
    rw [(hfresh.users user member hmember).1] at halliance
    cases halliance
  standing alliance hsome := by
    rw [hfresh.alliances alliance] at hsome
    cases hsome
  sums alliance row hrow := by
    rw [hfresh.alliances alliance] at hrow
    cases hrow

theorem Scored.perform {event : CommunityEvent} (hmembership : event.isMembership = true) :
    Safe Scored event.perform anything := by
  cases event with
  | signUp alliance => cases hmembership
  | request session asked =>
      cases session with
      | none => exact Safe.pure trivial
      | some user =>
          refine Safe.get.bind fun c _ => Safe.ite (fun _ => ?_) fun _ => Safe.pure trivial
          cases asked with
          | createAlliance name description => exact create user name description
          | changeFounder alliance uid => exact changeFounder user alliance uid
          | changeUserRank alliance uid rank => exact changeUserRank_request user alliance uid rank
          | removeUser alliance uid => exact removeUser user alliance uid
          | leave alliance => exact leave user alliance
          | createRequest action recipient value => exact createRequest_safe (fun c _ hscored => hscored.setRequests _) _ _ _ _
          | reaction answer token =>
              exact reaction_safe (fun c _ hscored => hscored.setRequests _) makeFriendship
                ScoredWith.addUser _ _ _
          | changeDefaultRank | changeDescription | destroyAlliance | createRank | updateRank
          | destroyRank | destroyRelationship => cases hmembership
  | call method =>
      cases method with
      | addScore user value => exact addScore user value
      | addUser alliance user =>
          exact setAlliance_safe ((ScoredWith.addUser alliance user).bind fun _ _ => Safe.pure trivial)
      | removeUser alliance user =>
          exact setAlliance_safe ((ScoredWith.removeUser alliance user).bind fun _ _ => Safe.pure trivial)
      | setFounder alliance newfounder oldfounder =>
          exact setAlliance_safe (ScoredWith.setFounder alliance newfounder oldfounder)
      | changeUserRank user rank =>
          exact (changeUserRank (some user) (some rank)).bind fun _ _ => Safe.pure trivial
      | addAllianceScore | setDescription | endFriendship => cases hmembership

/-- In every state that is reached, an alliance's score is the sum of its members' scores. -/
theorem alliance_score_is_sum {start final : Community} {events : List CommunityEvent}
    (hfresh : start.Fresh) (hmembership : ∀ event ∈ events, event.isMembership = true)
    (hrun : run CommunityEvent.step start events = some final) (alliance : AllianceId) (row : Alliance)
    (hrow : final.alliances.get alliance = some row) :
    row.score = final.users.total fun member =>
      if member.alliance = some alliance then member.score else 0 := by
  have hscored : final.Scored := by
    refine run_keeps Scored ?_ hfresh.scored (along_of_forall hmembership) hrun
    intro c event next hscored hevent hstep
    cases hstep
    exact (Scored.perform hevent).after hscored
  exact hscored.sums alliance row hrow

/-- The first user founds an alliance, invites the second one and loses some score. -/
def sampleEvents : List CommunityEvent :=
  [.request (some 1) (.createAlliance (some "Orion") none),
    .request (some 1) (.createRequest .allianceInvite (some 2) 7),
    .request (some 2) (.reaction .yes 7), .call (.addScore 1 (-5))]

theorem alliance_score_is_sum_sample :
    ∃ final row, run CommunityEvent.step sampleCommunity sampleEvents = some final ∧
      final.alliances.get 1 = some row ∧ row.score = 37 := by
  let final := (run CommunityEvent.step sampleCommunity sampleEvents).get (by decide)
  have hrun : run CommunityEvent.step sampleCommunity sampleEvents = some final :=
    (Option.some_get _).symm
  let row := (final.alliances.get 1).get (by decide +kernel)
  have hrow : final.alliances.get 1 = some row := (Option.some_get _).symm
  refine ⟨final, row, hrun, hrow, ?_⟩
  rw [alliance_score_is_sum sampleCommunity_fresh (by decide) hrun 1 row hrow]
  decide +kernel

end Community

end Mmog

import Mmog.Community.Outcome

/-!
# Accounts

Whatever alliances, requests and friends do, they only rewrite the columns of
users that are there.  An account comes by a registration, under a new id.
-/

namespace Mmog

open Ruby Action Community

/-- Rewriting a user keeps it, and the other tables do not matter. -/
structure Community.AccountFrame (I : Community → Prop) : Prop where
  users : ∀ {c : Community} (user : UserId) (change : Member → Member), I c → I (c.setUser user change)
  others : ∀ {c next : Community}, I c → next.users = c.users → I next

namespace Community.AccountFrame

variable {I : Community → Prop}

theorem setAlliance (alliance : AllianceId) : Safe I (setAlliance alliance) anything :=
  Safe.get.bind fun _ _ => Safe.ite (fun _ => Safe.throw _ _) fun _ => Safe.pure trivial

variable (hframe : AccountFrame I)

include hframe

theorem other {change : Community → Community} (hchange : ∀ c, (change c).users = c.users) :
    Safe I (modify change : CommunityAct PUnit) anything :=
  Safe.modify fun c hc => hframe.others hc (hchange c)

theorem user (user : UserId) (change : Member → Member) :
    Safe I (modify fun c => c.setUser user change : CommunityAct PUnit) anything :=
  Safe.modify fun _ hc => hframe.users user change hc

theorem giveRank (rank : RankId) (user : UserId) :
    Safe I (modify fun c => c.giveRank rank user : CommunityAct PUnit) anything :=
  hframe.user user _

/-! ## Methods -/

theorem save (alliance : AllianceId) (change : Alliance → Alliance) : Safe I (Alliance.save alliance change) anything :=
  hframe.other fun _ => rfl

theorem setDescription (alliance : AllianceId) (description : Option String) :
    Safe I (Alliance.setDescription alliance description) anything :=
  (hframe.save alliance _).bind fun _ _ => Safe.pure trivial

theorem setFounder (alliance : AllianceId) (newfounder : UserId) (oldfounder : Option UserId) :
    Safe I (Alliance.setFounder alliance newfounder oldfounder) anything := by
  refine Safe.get.bind fun c _ => ?_
  cases oldfounder with
  | none =>
      dsimp only
      cases c.founderRank alliance with
      | none => exact Safe.throw _ _
      | some rank => exact hframe.giveRank rank newfounder
  | some old =>
      refine Safe.get.bind fun next _ => ?_
      dsimp only
      cases next.rankOf newfounder with
      | none => exact Safe.throw_bind _ _ _
      | some given =>
          refine (hframe.giveRank given.1 old).bind fun _ _ => ?_
          cases c.founderRank alliance with
          | none => exact Safe.throw _ _
          | some rank => exact hframe.giveRank rank newfounder

theorem addUser (alliance : AllianceId) (user : UserId) : Safe I (Alliance.addUser alliance user) anything := by
  refine Safe.get.bind fun c _ => Safe.ite (fun _ => ?_) fun _ => Safe.pure trivial
  refine (hframe.user user _).bind fun _ _ => Safe.get.bind fun next _ => ?_
  cases next.standardRank alliance with
  | none => exact Safe.throw _ _
  | some standard =>
      refine (hframe.giveRank standard user).bind fun _ _ => Safe.get.bind fun c _ => ?_
      exact (hframe.save alliance _).bind fun _ _ => Safe.pure trivial

theorem deleteUser (user : UserId) : Safe I (Alliance.deleteUser user) anything := by
  refine (hframe.user user _).bind fun _ _ => Safe.get.bind fun c _ => ?_
  cases c.rankOf user with
  | none => exact Safe.throw _ _
  | some rank => exact hframe.user user _

theorem removeUser (alliance : AllianceId) (user : UserId) : Safe I (Alliance.removeUser alliance user) anything := by
  refine Safe.get.bind fun c _ => Safe.ite (fun _ => ?_) fun _ => Safe.pure trivial
  refine (hframe.deleteUser user).bind fun _ _ => Safe.get.bind fun next _ => ?_
  exact (hframe.save alliance _).bind fun _ _ => Safe.pure trivial

theorem changeDefaultRank (alliance : AllianceId) (rank : Option RankId) :
    Safe I (Alliance.changeDefaultRank alliance rank) anything := by
  refine Safe.get.bind fun c _ => ?_
  split
  · exact Safe.pure trivial
  · refine Safe.ite (fun _ => Safe.pure trivial) fun _ => ?_
    split
    · exact Safe.throw _ _
    · refine Safe.bind (φ := anything) ?_ fun _ _ => Safe.bind (φ := anything) ?_ fun _ _ => Safe.pure trivial
      · exact hframe.other fun _ => rfl
      · exact hframe.other fun _ => rfl

theorem changeUserRank (user : Option UserId) (rank : Option RankId) :
    Safe I (Alliance.changeUserRank user rank) anything := by
  refine Safe.get.bind fun c _ => ?_
  split
  · exact Safe.pure trivial
  · split
    · exact Safe.throw _ _
    · refine Safe.ite (fun _ => Safe.pure trivial) fun _ => ?_
      exact (hframe.giveRank _ _).bind fun _ _ => Safe.pure trivial

theorem addScore (user : UserId) (value : ℤ) : Safe I (Member.addScore user value) anything := by
  refine Safe.get.bind fun c _ => ?_
  cases c.allianceOf user with
  | none => exact hframe.user user _
  | some alliance => exact (hframe.save alliance _).bind fun _ _ => hframe.user user _

theorem makeFriendship (self other : UserId) : Safe I (Member.makeFriendship self other) anything := by
  refine Safe.bind (φ := anything) ?_ fun _ _ => ?_
  · exact hframe.other fun _ => rfl
  · exact hframe.other fun _ => rfl

theorem endFriendship (self other : UserId) : Safe I (Member.endFriendship self other) anything := by
  refine Safe.get.bind fun c _ => ?_
  split
  · refine Safe.bind (φ := anything) ?_ fun _ _ => Safe.pure trivial
    exact hframe.other fun _ => rfl
  · exact Safe.pure trivial

/-! ## Requests -/

theorem destroyPendingInvites (currentUser : UserId) :
    Safe I (AlliancesController.destroyPendingInvites currentUser) anything :=
  hframe.other fun _ => rfl

theorem createAlliance (currentUser : UserId) (name description : Option String) :
    Safe I (AlliancesController.create currentUser name description) anything := by
  refine Safe.get.bind fun c _ => Safe.ite (fun _ => ?_) fun _ => Safe.pure trivial
  cases name with
  | none => exact Safe.throw _ _
  | some name =>
      refine Safe.ite (fun _ => Safe.pure trivial) fun _ => ?_
      refine Safe.bind (φ := anything) ?_ fun _ _ => (hframe.addUser _ _).bind fun _ _ => ?_
      · exact hframe.other fun _ => rfl
      · exact Safe.ite (fun _ => hframe.setFounder _ _ _) fun _ => Safe.pure trivial

theorem destroyAlliance (currentUser : UserId) (alliance : AllianceId) :
    Safe I (AlliancesController.destroy currentUser alliance) anything := by
  refine (setAlliance alliance).bind fun _ _ => Safe.get.bind fun c _ => ?_
  refine Safe.ite (fun _ => ?_) fun _ => Safe.pure trivial
  refine (Safe.forM fun user _ => hframe.deleteUser user).bind fun _ _ => ?_
  refine Safe.bind (φ := anything) ?_ fun _ _ => (hframe.destroyPendingInvites currentUser).bind fun _ _ => ?_
  · exact hframe.other fun _ => rfl
  · exact hframe.other fun _ => rfl

theorem createRank (currentUser : UserId) (params : RankParams) :
    Safe I (RanksController.create currentUser params) anything := by
  refine Safe.get.bind fun c _ => ?_
  cases c.allianceOf currentUser with
  | none => exact Safe.throw _ _
  | some alliance => exact Safe.ite (fun _ => hframe.other fun _ => rfl) fun _ => Safe.pure trivial

theorem updateRank (currentUser : UserId) (id : RankId) (params : RankParams) :
    Safe I (RanksController.update currentUser id params) anything := by
  refine Safe.get.bind fun c _ => ?_
  cases c.ranks.get id with
  | none => exact Safe.throw _ _
  | some rank =>
      refine Safe.ite (fun _ => ?_) fun _ => Safe.pure trivial
      cases c.allianceOf currentUser with
      | none => exact Safe.throw _ _
      | some alliance => exact Safe.ite (fun _ => hframe.other fun _ => rfl) fun _ => Safe.pure trivial

theorem destroyRank (currentUser : UserId) (id : RankId) :
    Safe I (RanksController.destroy currentUser id) anything := by
  refine Safe.get.bind fun c _ => ?_
  cases c.ranks.get id with
  | none => exact Safe.throw _ _
  | some rank =>
      refine Safe.ite (fun _ => ?_) fun _ => Safe.pure trivial
      cases c.allianceOfRank rank with
      | none => exact Safe.throw _ _
      | some alliance =>
          refine Safe.ite (fun _ => ?_) fun _ => Safe.pure trivial
          refine Safe.bind (Safe.forM (φ := anything) fun user _ => ?_) fun _ _ => hframe.other fun _ => rfl
          split
          · exact Safe.throw _ _
          · exact hframe.giveRank _ user

theorem launchAction (id : ℕ) (request : Request) : Safe I (request.launchAction id) anything := by
  have hdestroy : Safe I (Request.destroy id) anything := hframe.other fun _ => rfl
  rw [Request.launchAction]
  cases request.action with
  | allianceInvite =>
      refine Safe.get.bind fun c _ => ?_
      cases c.allianceOf request.sender with
      | none => exact Safe.throw _ _
      | some alliance => exact (hframe.addUser alliance request.recipient).bind fun _ _ => hdestroy
  | friendshipInvite => exact (hframe.makeFriendship _ _).bind fun _ _ => hdestroy
  | other => exact Safe.pure trivial

theorem reaction (currentUser : UserId) (answer : RequestsController.Answer) (token : ℕ) :
    Safe I (RequestsController.reaction currentUser answer token) anything := by
  refine Safe.get.bind fun c _ => ?_
  split
  · exact Safe.pure trivial
  · split
    · exact Safe.pure trivial
    · refine Safe.ite (fun _ => ?_) fun _ => Safe.pure trivial
      cases answer with
      | yes => exact hframe.launchAction _ _
      | no => exact hframe.other fun _ => rfl
      | other => exact Safe.pure trivial

theorem asked (currentUser : UserId) (asked : UserRequest) : Safe I (asked.perform currentUser) anything := by
  have hrequests : ∀ (c : Community) (requests : Table Request), I c → I { c with requests } :=
    fun c requests hc => hframe.others hc rfl
  cases asked with
  | createAlliance name description => exact hframe.createAlliance currentUser name description
  | changeFounder alliance uid =>
      refine (setAlliance alliance).bind fun _ _ => Safe.get.bind fun c _ => ?_
      cases c.memberById alliance uid with
      | none => exact Safe.throw _ _
      | some founder => exact Safe.ite (fun _ => hframe.setFounder _ _ _) fun _ => Safe.pure trivial
  | changeDefaultRank alliance rank =>
      refine (setAlliance alliance).bind fun _ _ => Safe.get.bind fun c _ => Safe.ite (fun _ => ?_) fun _ => ?_
      · exact (hframe.changeDefaultRank _ _).bind fun _ _ => Safe.pure trivial
      · exact Safe.pure trivial
  | changeDescription alliance description =>
      refine (setAlliance alliance).bind fun _ _ => Safe.get.bind fun c _ => Safe.ite (fun _ => ?_) fun _ => ?_
      · exact (hframe.setDescription _ _).bind fun _ _ => Safe.pure trivial
      · exact Safe.pure trivial
  | changeUserRank alliance uid rank =>
      refine (setAlliance alliance).bind fun _ _ => Safe.get.bind fun c _ => Safe.ite (fun _ => ?_) fun _ => ?_
      · exact (hframe.changeUserRank _ _).bind fun _ _ => Safe.pure trivial
      · exact Safe.pure trivial
  | removeUser alliance uid =>
      refine (setAlliance alliance).bind fun _ _ => Safe.get.bind fun c _ => Safe.ite (fun _ => ?_) fun _ => ?_
      · cases c.memberById alliance uid with
        | none => exact Safe.throw _ _
        | some user => exact (hframe.removeUser _ _).bind fun _ _ => Safe.pure trivial
      · exact Safe.pure trivial
  | leave alliance =>
      refine (setAlliance alliance).bind fun _ _ => Safe.get.bind fun c _ => Safe.ite (fun _ => ?_) fun _ => ?_
      · refine (hframe.removeUser _ _).bind fun _ _ => Safe.ite (fun _ => ?_) fun _ => Safe.pure trivial
        exact hframe.destroyPendingInvites currentUser
      · exact Safe.pure trivial
  | destroyAlliance alliance => exact hframe.destroyAlliance currentUser alliance
  | createRank params => exact hframe.createRank currentUser params
  | updateRank rank params => exact hframe.updateRank currentUser rank params
  | destroyRank rank => exact hframe.destroyRank currentUser rank
  | createRequest action recipient requestvalue =>
      exact createRequest_safe hrequests currentUser action recipient requestvalue
  | reaction answer token => exact hframe.reaction currentUser answer token
  | destroyRelationship relationship =>
      refine Safe.get.bind fun c _ => ?_
      cases c.relationships.get relationship with
      | none => exact Safe.throw _ _
      | some row => exact (hframe.endFriendship _ _).bind fun _ _ => Safe.pure trivial

theorem call (method : MethodCall) : Safe I method.perform anything := by
  cases method with
  | addScore user value => exact hframe.addScore user value
  | addAllianceScore alliance value => exact (setAlliance alliance).bind fun _ _ => hframe.save alliance _
  | setDescription alliance description =>
      refine (setAlliance alliance).bind fun _ _ => (hframe.setDescription _ _).bind fun _ _ => ?_
      exact Safe.pure trivial
  | addUser alliance user =>
      exact (setAlliance alliance).bind fun _ _ => (hframe.addUser _ _).bind fun _ _ => Safe.pure trivial
  | removeUser alliance user =>
      exact (setAlliance alliance).bind fun _ _ => (hframe.removeUser _ _).bind fun _ _ => Safe.pure trivial
  | setFounder alliance newfounder oldfounder =>
      exact (setAlliance alliance).bind fun _ _ => hframe.setFounder _ _ _
  | changeUserRank user rank => exact (hframe.changeUserRank _ _).bind fun _ _ => Safe.pure trivial
  | endFriendship user other => exact (hframe.endFriendship _ _).bind fun _ _ => Safe.pure trivial

/-- Every event but a registration. -/
theorem perform {event : CommunityEvent} (hsignUp : ∀ alliance, event ≠ .signUp alliance) :
    Safe I event.perform anything := by
  cases event with
  | signUp alliance => exact absurd rfl (hsignUp alliance)
  | request session asked =>
      cases session with
      | none => exact Safe.pure trivial
      | some user =>
          exact Safe.get.bind fun c _ => Safe.ite (fun _ => hframe.asked user asked) fun _ => Safe.pure trivial
  | call method => exact hframe.call method

end Community.AccountFrame

end Mmog

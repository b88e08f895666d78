import Mmog.Community.Inside

/-!
# Rights

Whoever changes an alliance has the right to do so, as long as nobody signs up
as a member and only those invite who may.
-/

namespace Mmog

open Ruby Action

namespace Community

/-! ## Who may change what -/

/-- The request that a token stands for, if it invites the user to an alliance. -/
def invitation (c : Community) (user : UserId) (token : ℕ) : Option Request :=
  ((c.pending user token).map Prod.snd).filter fun request => request.action = .allianceInvite

/-- The user founds the alliance, leaves it, or is a member whose rank gives the right; or accepts
an invitation of such a member. -/
def MayChange (c : Community) (user : UserId) (alliance : AllianceId) : UserRequest → Prop
  | .createAlliance _ _ => alliance = c.alliances.nextId ∧ c.allianceOf user = none
  | .leave id => id = alliance ∧ c.allianceOf user = some alliance
  | .changeFounder id _ => id = alliance ∧ c.Entitled alliance user .destroy
  | .destroyAlliance id => id = alliance ∧ c.Entitled alliance user .destroy
  | .changeDefaultRank id _ => id = alliance ∧ c.Entitled alliance user .editRanks
  | .changeUserRank id _ _ => id = alliance ∧ c.Entitled alliance user .editRanks
  | .createRank _ => c.Entitled alliance user .editRanks
  | .updateRank _ _ => c.Entitled alliance user .editRanks
  | .destroyRank _ => c.Entitled alliance user .editRanks
  | .changeDescription id _ => id = alliance ∧ c.Entitled alliance user .changeDescription
  | .removeUser id _ => id = alliance ∧ c.Entitled alliance user .kick
  | .reaction answer token => answer = .yes ∧ ∃ request, c.invitation user token = some request ∧
      c.Entitled alliance request.sender .invite
  | .createRequest _ _ _ => False
  | .destroyRelationship _ => False

def Authorised (c : Community) (alliance : AllianceId) : CommunityEvent → Prop
  | .request (some user) asked => c.MayChange user alliance asked
  | _ => False

/-- Every alliance that is not gone is as before, or the event may change it. -/
def Respects (c : Community) (event : CommunityEvent) (next : Community) : Prop :=
  ∀ alliance, ¬ c.Gone alliance → Kept c next alliance ∨ c.Authorised alliance event

end Community

/-- The alliance that a registration names. -/
def CommunityEvent.signsUpFor : CommunityEvent → Option AllianceId
  | .signUp alliance => alliance
  | _ => none

namespace Community

/-- The invitation to an alliance that is accepted. -/
def accepts (c : Community) : CommunityEvent → Option Request
  | .request (some user) (.reaction .yes token) => c.invitation user token
  | _ => none

/-- Nobody signs up as a member, and who joins was invited by a member who may. -/
def Guarded (c : Community) (event : CommunityEvent) : Prop :=
  (∀ id ∈ event.signsUpFor, c.Gone id) ∧
    ∀ request ∈ c.accepts event, ∀ alliance ∈ c.allianceOf request.sender,
      c.allianceOf request.recipient = none → c.permission? alliance request.sender .invite = true

instance (c : Community) (event : CommunityEvent) : Decidable (c.Guarded event) :=
  inferInstanceAs (Decidable (_ ∧ ∀ request ∈ c.accepts event, ∀ alliance ∈ c.allianceOf request.sender, _))

/-- What an event that respects the rights leaves behind. -/
structure Lawful (c : Community) (event : CommunityEvent) (next : Community) : Prop where
  rooted : next.Rooted
  respects : Respects c event next

variable {c next : Community} {alliance : AllianceId} {user : UserId} {member : Member}

theorem Within.lawful (hwithin : Within alliance c next) {event : CommunityEvent}
    (hauthorised : c.Authorised alliance event) : Lawful c event next := by
  refine ⟨hwithin.rooted, fun other hgone => ?_⟩
  by_cases heq : other = alliance
  · exact Or.inr (heq ▸ hauthorised)
  · exact Or.inl (hwithin.apart other heq hgone).2

namespace Rooted

theorem lawful (hrooted : c.Rooted) (event : CommunityEvent) : Lawful c event c :=
  ⟨hrooted, fun alliance _ => Or.inl (Kept.refl c alliance)⟩

/-- Requests and friends are of no alliance. -/
theorem lawful_of_requests (hrooted : c.Rooted) (event : CommunityEvent) (requests : Table Request)
    (relationships : Table Relationship) : Lawful c event { c with requests, relationships } :=
  ⟨⟨hrooted.ranks, hrooted.users⟩, fun _ _ => Or.inl ⟨rfl, fun _ => rfl, fun _ => rfl⟩⟩

theorem create (hrooted : c.Rooted) (hget : c.users.get user = some member)
    (name description : Option String) :
    Lawful c (.request (some user) (.createAlliance name description))
      (after ((AlliancesController.create user name description).run c)) := by
  rw [AlliancesController.create, run_bind_get]
  dsimp only
  split
  · rename_i hnone
    rw [Option.isNone_iff_eq_none] at hnone
    cases name with
    | none => exact hrooted.lawful _
    | some name =>
        dsimp only
        split
        · exact hrooted.lawful _
        · rw [run_bind_modify]
          have hcreated := hrooted.created name description
          set created : Community := { c with
            alliances := c.alliances.create { name, description }
            ranks := createDefaultRanks c.ranks c.alliances.nextId }
          have hgetcreated : created.users.get user = some member := hget
          suffices hinside : Inside c.alliances.nextId c _ from hinside.toWithin.lawful ⟨rfl, hnone.1⟩
          have hadded := (Inside.addUser user).after hcreated
          cases hsome : created.allianceOf user with
          | some other =>
              rw [run_bind_of_ok (Alliance.addUser_refused (by rw [hsome]; rfl))]
              exact hcreated
          | none =>
              cases hstandard : created.standardRank c.alliances.nextId with
              | none =>
                  have hstuck := Alliance.addUser_stuck hsome hstandard
                  rw [hstuck] at hadded
                  rw [run_bind_of_error hstuck]
                  exact hadded
              | some standard =>
                  have hjoins := Alliance.addUser_joins hsome hstandard
                  rw [hjoins] at hadded
                  rw [run_bind_of_ok hjoins, if_pos rfl]
                  exact hadded.firstFounder (Table.get_modify_self _ hgetcreated) rfl
  · exact hrooted.lawful _

theorem changeFounder (hrooted : c.Rooted) (uid : UserId) :
    Lawful c (.request (some user) (.changeFounder alliance uid))
      (after ((AlliancesController.changeFounder user alliance uid).run c)) := by
  refine after_setAlliance (hrooted.lawful _) fun hlive => ?_
  rw [run_bind_get]
  cases hmember : c.memberById alliance uid with
  | none => exact hrooted.lawful _
  | some new =>
      dsimp only
      split
      · rename_i hallowed
        have hentitled := hrooted.entitled hallowed.1
        obtain ⟨rfl, member, hget, hin⟩ := memberById_eq_some.mp hmember
        obtain ⟨former, -, -, hold, hformer, -⟩ := hentitled
        exact ((hrooted.inside hlive).setFounder hget hin hold hformer).toWithin.lawful
          ⟨rfl, hrooted.entitled hallowed.1⟩
      · exact hrooted.lawful _

theorem changeDefaultRank (hrooted : c.Rooted) (id : RankId) :
    Lawful c (.request (some user) (.changeDefaultRank alliance id))
      (after ((AlliancesController.changeDefaultRank user alliance id).run c)) := by
  refine after_setAlliance (hrooted.lawful _) fun hlive => ?_
  rw [run_bind_get]
  split
  · rename_i hallowed
    rw [after_bind_pure]
    exact ((hrooted.inside hlive).changeDefaultRank id).toWithin.lawful ⟨rfl, hrooted.entitled hallowed⟩
  · exact hrooted.lawful _

theorem changeDescription (hrooted : c.Rooted) (description : Option String) :
    Lawful c (.request (some user) (.changeDescription alliance description))
      (after ((AlliancesController.changeDescription user alliance description).run c)) := by
  refine after_setAlliance (hrooted.lawful _) fun hlive => ?_
  rw [run_bind_get]
  split
  · rename_i hallowed
    exact ((hrooted.inside hlive).save _).toWithin.lawful ⟨rfl, hrooted.entitled hallowed⟩
  · exact hrooted.lawful _

theorem changeUserRank (hrooted : c.Rooted) (uid : UserId) (rank : RankId) :
    Lawful c (.request (some user) (.changeUserRank alliance uid rank))
      (after ((AlliancesController.changeUserRank user alliance uid rank).run c)) := by
  refine after_setAlliance (hrooted.lawful _) fun hlive => ?_
  rw [run_bind_get]
  split
  · rename_i hallowed
    rw [after_bind_pure]
    exact ((hrooted.inside hlive).changeUserRank uid rank).toWithin.lawful ⟨rfl, hrooted.entitled hallowed⟩
  · exact hrooted.lawful _

theorem removeUser (hrooted : c.Rooted) (uid : UserId) :
    Lawful c (.request (some user) (.removeUser alliance uid))
      (after ((AlliancesController.removeUser user alliance uid).run c)) := by
  refine after_setAlliance (hrooted.lawful _) fun hlive => ?_
  rw [run_bind_get]
  split
  · rename_i hallowed
    cases c.memberById alliance uid with
    | none => exact hrooted.lawful _
    | some kicked =>
        dsimp only
        rw [after_bind_pure]
        exact ((Inside.removeUser kicked).after (hrooted.inside hlive)).toWithin.lawful
          ⟨rfl, hrooted.entitled hallowed⟩
  · exact hrooted.lawful _

/-- Only a member leaves. -/
theorem leave (hrooted : c.Rooted) :
    Lawful c (.request (some user) (.leave alliance))
      (after ((AlliancesController.leave user alliance).run c)) := by
  refine after_setAlliance (hrooted.lawful _) fun hlive => ?_
  rw [run_bind_get]
  split
  · by_cases hmember : c.allianceOf user = some alliance
    · suffices hinside : Inside alliance c _ from hinside.toWithin.lawful ⟨rfl, hmember⟩
      refine (Inside.removeUser user).after_bind (hrooted.inside hlive) (fun _ hnext => hnext) ?_
      intro removed next _ hnext
      cases removed with
      | false => exact hnext
      | true => exact hnext.setRequests _
    · rw [run_bind_of_ok (Alliance.removeUser_refused hmember)]
      exact hrooted.lawful _
  · exact hrooted.lawful _

theorem destroyAlliance (hrooted : c.Rooted) :
    Lawful c (.request (some user) (.destroyAlliance alliance))
      (after ((AlliancesController.destroy user alliance).run c)) := by
  refine after_setAlliance (hrooted.lawful _) fun hlive => ?_
  rw [run_bind_get]
  split
  · rename_i hallowed
    exact ((hrooted.inside hlive).destroyAlliance user).lawful ⟨rfl, hrooted.entitled hallowed.2⟩
  · exact hrooted.lawful _

theorem rankCreate (hrooted : c.Rooted) (params : RankParams) :
    Lawful c (.request (some user) (.createRank params))
      (after ((RanksController.create user params).run c)) := by
  rw [RanksController.create, run_bind_get]
  cases halliance : c.allianceOf user with
  | none => exact hrooted.lawful _
  | some alliance =>
      obtain ⟨-, -, -, hlive⟩ := allianceOf_eq_some.mp halliance
      dsimp only
      split
      · rename_i hallowed
        have hentitled : c.Entitled alliance user .editRanks := hrooted.entitled hallowed
        exact ((hrooted.inside hlive).createRank rfl).toWithin.lawful hentitled
      · exact hrooted.lawful _

theorem rankUpdate (hrooted : c.Rooted) (id : RankId) (params : RankParams) :
    Lawful c (.request (some user) (.updateRank id params))
      (after ((RanksController.update user id params).run c)) := by
  rw [RanksController.update, run_bind_get]
  cases hget : c.ranks.get id with
  | none => exact hrooted.lawful _
  | some rank =>
      dsimp only
      split
      · rename_i hsame
        cases halliance : c.allianceOf user with
        | none => exact hrooted.lawful _
        | some alliance =>
            obtain ⟨hin, hlive⟩ := Option.filter_eq_some_iff.mp (hsame.symm.trans halliance)
            have hinside := hrooted.inside hlive
            dsimp only
            -- the founder's rank, and the others
            split
            · split
              · rename_i hallowed
                have hentitled : c.Entitled alliance user .editRanks := hrooted.entitled hallowed.1
                exact (hinside.modifyRank hget (Option.some.inj hin) rfl).toWithin.lawful hentitled
              · exact hrooted.lawful _
            · split
              · rename_i hallowed
                have hentitled : c.Entitled alliance user .editRanks := hrooted.entitled hallowed.1
                exact (hinside.modifyRank hget (Option.some.inj hin) rfl).toWithin.lawful hentitled
              · exact hrooted.lawful _
      · exact hrooted.lawful _

theorem rankDestroy (hrooted : c.Rooted) (id : RankId) :
    Lawful c (.request (some user) (.destroyRank id)) (after ((RanksController.destroy user id).run c)) := by
  rw [RanksController.destroy, run_bind_get]
  cases hget : c.ranks.get id with
  | none => exact hrooted.lawful _
  | some rank =>
      dsimp only
      split
      · cases halliance : c.allianceOfRank rank with
        | none => exact hrooted.lawful _
        | some alliance =>
            obtain ⟨hin, hlive⟩ := Option.filter_eq_some_iff.mp halliance
            dsimp only
            split
            · rename_i hallowed
              have hentitled : c.Entitled alliance user .editRanks := hrooted.entitled hallowed.1
              suffices hinside : Inside alliance c _ from hinside.toWithin.lawful hentitled
              have hplain : rank.standard = false := by
                simpa using fun hstandard => hallowed.2 (Or.inl hstandard)
              exact (hrooted.inside hlive).destroyHeldRank hget (Option.some.inj hin) hplain
            · exact hrooted.lawful _
      · exact hrooted.lawful _

theorem createRequest (hrooted : c.Rooted) (action : RequestAction) (recipient : Option UserId)
    (requestvalue : ℕ) :
    Lawful c (.request (some user) (.createRequest action recipient requestvalue))
      (after ((RequestsController.create user action recipient requestvalue).run c)) := by
  have hsafe : Safe (Lawful c (.request (some user) (.createRequest action recipient requestvalue)))
      (RequestsController.create user action recipient requestvalue) anything := by
    refine createRequest_safe (fun next requests hlawful => ?_) user action recipient requestvalue
    refine ⟨⟨hlawful.rooted.ranks, hlawful.rooted.users⟩, fun alliance hgone => ?_⟩
    exact (hlawful.respects alliance hgone).imp_left fun hkept => ⟨hkept.row, hkept.members, hkept.ranks⟩
  exact hsafe.after (hrooted.lawful _)

theorem reaction (hrooted : c.Rooted) {answer : RequestsController.Answer} {token : ℕ}
    (hguarded : c.Guarded (.request (some user) (.reaction answer token))) :
    Lawful c (.request (some user) (.reaction answer token))
      (after ((RequestsController.reaction user answer token).run c)) := by
  cases hpending : c.pending user token with
  | none =>
      rw [reaction_of_none hpending]
      exact hrooted.lawful _
  | some found =>
      obtain ⟨id, request⟩ := found
      rw [reaction_of_pending hpending]
      cases answer with
      | no => exact hrooted.lawful_of_requests _ _ _
      | other => exact hrooted.lawful _
      | yes =>
          dsimp only
          rw [Request.launchAction]
          cases haction : request.action with
          | other => exact hrooted.lawful _
          | friendshipInvite => exact hrooted.lawful_of_requests _ _ _
          | allianceInvite =>
              dsimp only
              rw [run_bind_get]
              cases halliance : c.allianceOf request.sender with
              | none => exact hrooted.lawful _
              | some alliance =>
                  dsimp only
                  cases hnone : c.allianceOf request.recipient with
                  | some other =>
                      rw [run_bind_of_ok (Alliance.addUser_refused (by rw [hnone]; rfl))]
                      exact hrooted.lawful_of_requests _ _ _
                  | none =>
                      have hinvitation : c.invitation user token = some request := by
                        rw [invitation, hpending]
                        exact Option.filter_eq_some_iff.mpr ⟨rfl, decide_eq_true haction⟩
                      have hinvites := hguarded.2 request hinvitation alliance halliance hnone
                      obtain ⟨-, -, -, hlive⟩ := allianceOf_eq_some.mp halliance
                      suffices hinside : Inside alliance c _ from
                        hinside.toWithin.lawful ⟨rfl, request, hinvitation, hrooted.entitled hinvites⟩
                      exact (Inside.addUser request.recipient).after_bind (hrooted.inside hlive)
                        (fun _ hnext => hnext) fun _ _ _ hnext => hnext.setRequests _

theorem endFriendship (hrooted : c.Rooted) (event : CommunityEvent) (self other : UserId) :
    Lawful c event (after ((Member.endFriendship self other).run c)) := by
  rw [Member.endFriendship, run_bind_get]
  split
  · exact hrooted.lawful_of_requests _ _ _
  · exact hrooted.lawful _

theorem signUp (hrooted : c.Rooted) {alliance : Option AllianceId}
    (hguarded : c.Guarded (.signUp alliance)) :
    Lawful c (.signUp alliance) { c with users := c.users.create { alliance } } := by
  refine ⟨⟨hrooted.ranks, hrooted.users.create ⟨fun id hid => ?_, nofun⟩⟩, fun other hgone => Or.inl ?_⟩
  · exact (hguarded.1 id hid).1
  · refine ⟨rfl, fun user => congrArg _ (Table.pick_create_of_not _ ?_ user), fun _ => rfl⟩
    exact decide_eq_false fun hin => hgone (hguarded.1 other hin)

end Rooted

end Community

/-- The registrations and the requests of users, but no method that is called from elsewhere. -/
def CommunityEvent.isAsked : CommunityEvent → Bool
  | .call _ => false
  | _ => true

namespace Community

theorem Rooted.perform {c : Community} (hrooted : c.Rooted) {event : CommunityEvent}
    (hasked : event.isAsked = true) (hguarded : c.Guarded event) :
    Lawful c event (after (event.perform.run c)) := by
  cases event with
  | signUp alliance => exact hrooted.signUp hguarded
  | call method => cases hasked
  | request session asked =>
      cases session with
      | none => exact hrooted.lawful _
      | some user =>
          unfold CommunityEvent.perform
          rw [run_bind_get]
          cases hget : c.users.get user with
          | none => exact hrooted.lawful _
          | some member =>
              rw [Option.isSome_some, if_pos rfl]
              cases asked with
              | createAlliance name description => exact hrooted.create hget name description
              | changeFounder alliance uid => exact hrooted.changeFounder uid
              | changeDefaultRank alliance rank => exact hrooted.changeDefaultRank rank
              | changeDescription alliance description => exact hrooted.changeDescription description
              | changeUserRank alliance uid rank => exact hrooted.changeUserRank uid rank
              | removeUser alliance uid => exact hrooted.removeUser uid
              | leave alliance => exact hrooted.leave
              | destroyAlliance alliance => exact hrooted.destroyAlliance
              | createRank params => exact hrooted.rankCreate params
              | updateRank rank params => exact hrooted.rankUpdate rank params
              | destroyRank rank => exact hrooted.rankDestroy rank
              | createRequest action recipient value => exact hrooted.createRequest action recipient value
              | reaction answer token => exact hrooted.reaction hguarded
              | destroyRelationship relationship =>
                  change Lawful c _ (after ((RelationshipsController.destroy user relationship).run c))
                  rw [RelationshipsController.destroy, run_bind_get]
                  cases c.relationships.get relationship with
                  | none => exact hrooted.lawful _
                  | some row =>
                      dsimp only
                      rw [after_bind_pure]
                      exact hrooted.endFriendship _ _ _

theorem Fresh.rooted {c : Community} (hfresh : c.Fresh) : c.Rooted where
  ranks id rank hget := by
    rw [hfresh.ranks id] at hget
    cases hget
  users user member hget := by
    obtain ⟨halliance, hrank⟩ := hfresh.users user member hget
    rw [halliance, hrank]
    exact ⟨nofun, nofun⟩

/-- As long as nobody signs up as a member and only those invite who may, every request of a run
leaves every alliance as it is that its user may not change. -/
theorem rights_enforced {start : Community} {events : List CommunityEvent} (hfresh : start.Fresh)
    (hasked : ∀ event ∈ events, event.isAsked = true)
    (hguarded : Along CommunityEvent.step Guarded start events) :
    Along CommunityEvent.step (fun c event => Respects c event (after (event.perform.run c))) start events := by
  refine Along.of_invariant Rooted ?_ ?_ hfresh.rooted ((along_of_forall hasked).and hguarded)
  · intro c event next hrooted hevent hstep
    cases hstep
    exact (hrooted.perform hevent.1 hevent.2).rooted
  · intro c event hrooted hevent
    exact (hrooted.perform hevent.1 hevent.2).respects

/-- The second user joins the alliance and leaves it before it is destroyed. -/
def joinedAndLeft : List CommunityEvent :=
  [.signUp none, .request (some 1) (.createAlliance (some "Orion") none),
    .request (some 1) (.createRequest .allianceInvite (some 2) 7),
    .request (some 2) (.reaction .yes 7), .request (some 2) (.leave 1),
    .request (some 1) (.destroyAlliance 1)]

theorem rights_enforced_sample : Along CommunityEvent.step
    (fun c event => Respects c event (after (event.perform.run c))) sampleCommunity joinedAndLeft :=
  rights_enforced sampleCommunity_fresh (by decide) (by decide +kernel)

/-- A third user signs up as a member of an alliance. -/
def smuggledIn : List CommunityEvent :=
  [.request (some 1) (.createAlliance (some "Orion") none), .signUp (some 1)]

theorem signed_up_as_member :
    ¬ ∀ (start : Community) (events : List CommunityEvent), start.Fresh →
      (∀ event ∈ events, event.isAsked = true) →
      Along CommunityEvent.step (fun c event => Respects c event (after (event.perform.run c))) start events := by
  intro hall
  have halong := hall sampleCommunity smuggledIn sampleCommunity_fresh (by decide)
  obtain ⟨hrespects, -⟩ := halong.2 _ rfl
  rcases hrespects 1 (by decide +kernel) with hkept | hnobody
  · exact absurd (hkept.members 3) (by decide +kernel)
  · exact hnobody

end Community

end Mmog

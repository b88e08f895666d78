import Mmog.Model.Community
import Mmog.Ruby.Run

/-!
# Requests of the community

What the controllers of alliances, ranks, requests and relationships do for the
user of the session, and the events of the community.
-/

namespace Mmog

open Ruby Community

/-- The parameters of a rank that a request may set. -/
structure RankParams where
  name : Option String := none
  canKick : Option Bool := none
  canMassmail : Option Bool := none
  canChangeDescription : Option Bool := none
  canEditRanks : Option Bool := none
  canInvite : Option Bool := none
  canDisband : Option Bool := none

namespace RankParams

/-- The rights of a rank with those that are given. -/
def assign (params : RankParams) (rights : Rights) : Rights where
  canKick := params.canKick.getD rights.canKick
  canMassmail := params.canMassmail.getD rights.canMassmail
  canChangeDescription := params.canChangeDescription.getD rights.canChangeDescription
  canEditRanks := params.canEditRanks.getD rights.canEditRanks
  canInvite := params.canInvite.getD rights.canInvite
  canDisband := params.canDisband.getD rights.canDisband

end RankParams

/-- `@alliance = Alliance.find(params[:id])`. -/
def setAlliance (id : AllianceId) : CommunityAct Unit := do
  if ((← get).alliances.get id).isNone then throw .recordNotFound

namespace AlliancesController

def destroyPendingInvites (currentUser : UserId) : CommunityAct Unit :=
  modify fun c => { c with
    requests := (c.requests.select fun request =>
      request.sender = currentUser ∧ request.action = .allianceInvite).foldl Table.destroy c.requests }

/-- Whether an alliance with this name may be created. -/
def isAllianceNameTaken (c : Community) (name : String) : Bool :=
  (c.alliances.first fun row => row.name = name.toLower).isSome

def create (currentUser : UserId) (name description : Option String) : CommunityAct Unit := do
  let c ← get
  if (c.allianceOf currentUser).isNone ∧ (c.rankOf currentUser).isNone then
    match name with
    -- the validation asks for the lower case of no name
    | none => throw .noMethodError
    | some name =>
        if isBlank name ∨ isAllianceNameTaken c name then return
        let alliance := c.alliances.nextId
        modify fun c => { c with
          alliances := c.alliances.create { name, description }
          ranks := createDefaultRanks c.ranks alliance }
        if ← Alliance.addUser alliance currentUser then
          Alliance.setFounder alliance currentUser none

def changeFounder (currentUser : UserId) (alliance : AllianceId) (uid : UserId) : CommunityAct Unit := do
  setAlliance alliance
  let c ← get
  match c.memberById alliance uid with
  | none => throw .recordNotFound
  | some newFounder =>
      if c.permission? alliance currentUser .destroy ∧ newFounder ≠ currentUser then
        Alliance.setFounder alliance newFounder (some currentUser)

def changeDefaultRank (currentUser : UserId) (alliance : AllianceId) (id : RankId) : CommunityAct Unit := do
  setAlliance alliance
  let c ← get
  if c.permission? alliance currentUser .editRanks then
    let _ ← Alliance.changeDefaultRank alliance (c.rankById alliance id)

def changeDescription (currentUser : UserId) (alliance : AllianceId) (description : Option String) :
    CommunityAct Unit := do
  setAlliance alliance
  if (← get).permission? alliance currentUser .changeDescription then
    let _ ← Alliance.setDescription alliance description

def changeUserRank (currentUser : UserId) (alliance : AllianceId) (uid : UserId) (rank : RankId) :
    CommunityAct Unit := do
  setAlliance alliance
  let c ← get
  if c.permission? alliance currentUser .editRanks then
    let _ ← Alliance.changeUserRank (c.memberById alliance uid) (c.rankById alliance rank)

def removeUser (currentUser : UserId) (alliance : AllianceId) (uid : UserId) : CommunityAct Unit := do
  setAlliance alliance
  let c ← get
  if c.permission? alliance currentUser .kick then
    match c.memberById alliance uid with
    | none => throw .noMethodError
    | some user => let _ ← Alliance.removeUser alliance user

def leave (currentUser : UserId) (alliance : AllianceId) : CommunityAct Unit := do
  setAlliance alliance
  if !(← get).permission? alliance currentUser .destroy then
    if ← Alliance.removeUser alliance currentUser then
      destroyPendingInvites currentUser

def destroy (currentUser : UserId) (alliance : AllianceId) : CommunityAct Unit := do
  setAlliance alliance
  let c ← get
  if c.allianceOf currentUser = some alliance ∧ c.permission? alliance currentUser .destroy then
    (c.users.select (inAlliance alliance)).forM Alliance.deleteUser
    modify fun c => { c with
      ranks := (c.ranks.select fun rank => rank.alliance = alliance).foldl Table.destroy c.ranks }
    destroyPendingInvites currentUser
    modify fun c => { c with alliances := c.alliances.destroy alliance }

end AlliancesController

namespace RanksController

def create (currentUser : UserId) (params : RankParams) : CommunityAct Unit := do
  let c ← get
  match c.allianceOf currentUser with
  -- the answer redirects to the alliance of the rank, which is nil
  | none => throw .noMethodError
  | some alliance =>
      -- a name that is missing is refused like a blank one
      if c.permission? alliance currentUser .editRanks then
        modify fun c => { c with
          ranks := createRank c.ranks
            { params.assign {} with alliance, name := params.name.getD "" } }

def update (currentUser : UserId) (id : RankId) (params : RankParams) : CommunityAct Unit := do
  let c ← get
  match c.ranks.get id with
  | none => throw .recordNotFound
  | some rank =>
      if c.allianceOf currentUser = c.allianceOfRank rank then
        match c.allianceOf currentUser with
        | none => throw .noMethodError
        | some alliance =>
            -- of the founder's rank only the name can change
            let new : Rank :=
              if rank.isFounder then { rank with name := params.name.getD "" }
              else { rank with
                toRights := params.assign rank.toRights
                name := params.name.getD rank.name }
            if c.permission? alliance currentUser .editRanks ∧ ¬ isBlank new.name then
              modify fun c => { c with ranks := c.ranks.put id new }

def destroy (currentUser : UserId) (id : RankId) : CommunityAct Unit := do
  let c ← get
  match c.ranks.get id with
  | none => throw .recordNotFound
  | some rank =>
      if c.allianceOf currentUser = c.allianceOfRank rank then
        match c.allianceOfRank rank with
        | none => throw .noMethodError
        | some alliance =>
            if c.permission? alliance currentUser .editRanks ∧ ¬ (rank.standard ∨ rank.isFounder) then
              (c.users.select fun member => member.rank = some id).forM fun user =>
                match c.standardRank alliance with
                | none => throw .noMethodError
                | some standard => modify fun c => c.giveRank standard user
              modify fun c => { c with ranks := c.ranks.destroy id }

end RanksController

namespace RequestsController

inductive Answer where
  | yes | no | other
  deriving DecidableEq

/-- `recipient` is the user with the name that was given, and `requestvalue` what is drawn for it. -/
def create (currentUser : UserId) (action : RequestAction) (recipient : Option UserId)
    (requestvalue : ℕ) : CommunityAct Unit := do
  match recipient with
  | none => return
  | some recipient =>
      let id := (← get).requests.nextId
      modify fun c => { c with
        requests := c.requests.create { action, sender := currentUser, recipient, requestvalue } }
      let c ← get
      if action = .allianceInvite ∧ (c.allianceOf recipient).isSome then Request.destroy id
      else if action = .friendshipInvite ∧ (Member.relationship c currentUser recipient).isSome then
        Request.destroy id
      -- the message names the alliance of the sender
      else if action = .allianceInvite ∧ (c.allianceOf currentUser).isNone then throw .noMethodError

def reaction (currentUser : UserId) (answer : Answer) (token : ℕ) : CommunityAct Unit := do
  let c ← get
  match c.requests.first fun request => request.requestvalue = token with
  | none => return
  | some id =>
      match c.requests.get id with
      | none => return
      | some request =>
          if request.recipient = currentUser then
            match answer with
            | .no => Request.destroy id
            | .yes => request.launchAction id
            | .other => return

end RequestsController

namespace RelationshipsController

def destroy (currentUser : UserId) (id : ℕ) : CommunityAct Unit := do
  match (← get).relationships.get id with
  | none => throw .noMethodError
  | some relationship => let _ ← Member.endFriendship currentUser relationship.friend

end RelationshipsController

/-! ## Events -/

/-- A request of the user of a session. -/
inductive UserRequest where
  | createAlliance (name description : Option String)
  | changeFounder (alliance : AllianceId) (uid : UserId)
  | changeDefaultRank (alliance : AllianceId) (rank : RankId)
  | changeDescription (alliance : AllianceId) (description : Option String)
  | changeUserRank (alliance : AllianceId) (uid : UserId) (rank : RankId)
  | removeUser (alliance : AllianceId) (uid : UserId)
  | leave (alliance : AllianceId)
  | destroyAlliance (alliance : AllianceId)
  | createRank (params : RankParams)
  | updateRank (rank : RankId) (params : RankParams)
  | destroyRank (rank : RankId)
  | createRequest (action : RequestAction) (recipient : Option UserId) (requestvalue : ℕ)
  | reaction (answer : RequestsController.Answer) (token : ℕ)
  | destroyRelationship (relationship : ℕ)

def UserRequest.perform (currentUser : UserId) : UserRequest → CommunityAct Unit
  | createAlliance name description => AlliancesController.create currentUser name description
  | changeFounder alliance uid => AlliancesController.changeFounder currentUser alliance uid
  | changeDefaultRank alliance rank => AlliancesController.changeDefaultRank currentUser alliance rank
  | changeDescription alliance description =>
      AlliancesController.changeDescription currentUser alliance description
  | changeUserRank alliance uid rank =>
      AlliancesController.changeUserRank currentUser alliance uid rank
  | removeUser alliance uid => AlliancesController.removeUser currentUser alliance uid
  | leave alliance => AlliancesController.leave currentUser alliance
  | destroyAlliance alliance => AlliancesController.destroy currentUser alliance
  | createRank params => RanksController.create currentUser params
  | updateRank rank params => RanksController.update currentUser rank params
  | destroyRank rank => RanksController.destroy currentUser rank
  | createRequest action recipient requestvalue =>
      RequestsController.create currentUser action recipient requestvalue
  | reaction answer token => RequestsController.reaction currentUser answer token
  | destroyRelationship relationship => RelationshipsController.destroy currentUser relationship

/-- A method that another part of the game calls. -/
inductive MethodCall where
  | addScore (user : UserId) (value : ℤ)
  | addAllianceScore (alliance : AllianceId) (value : ℤ)
  | setDescription (alliance : AllianceId) (description : Option String)
  | addUser (alliance : AllianceId) (user : UserId)
  | removeUser (alliance : AllianceId) (user : UserId)
  | setFounder (alliance : AllianceId) (newfounder : UserId) (oldfounder : Option UserId)
  | changeUserRank (user : UserId) (rank : RankId)
  | endFriendship (user other : UserId)

/-- A method of an alliance that is gone is not called. -/
def MethodCall.perform : MethodCall → CommunityAct Unit
  | addScore user value => Member.addScore user value
  | addAllianceScore alliance value => do
      setAlliance alliance
      Alliance.addScore alliance value
  | setDescription alliance description => do
      setAlliance alliance
      let _ ← Alliance.setDescription alliance description
  | addUser alliance user => do
      setAlliance alliance
      let _ ← Alliance.addUser alliance user
  | removeUser alliance user => do
      setAlliance alliance
      let _ ← Alliance.removeUser alliance user
  | setFounder alliance newfounder oldfounder => do
      setAlliance alliance
      Alliance.setFounder alliance newfounder oldfounder
  | changeUserRank user rank => do
      let _ ← Alliance.changeUserRank (some user) (some rank)
  | endFriendship user other => do
      let _ ← Member.endFriendship user other

inductive CommunityEvent where
  /-- The parameters of a registration may name an alliance. -/
  | signUp (alliance : Option AllianceId)
  | request (session : Option UserId) (asked : UserRequest)
  | call (method : MethodCall)

namespace CommunityEvent

/-- The action of an event; a request without a user is sent away. -/
def perform : CommunityEvent → CommunityAct Unit
  | .signUp alliance => modify fun c => { c with users := c.users.create { alliance } }
  | .request (some user) asked => do
      if ((← get).users.get user).isSome then asked.perform user
  | .request none _ => pure ()
  | .call method => method.perform

/-- What an event leaves behind, whether it returns or raises. -/
def step (c : Community) (event : CommunityEvent) : Option Community :=
  some (Action.after (event.perform.run c))

end CommunityEvent

/-- No alliances and no ranks yet, and nobody who has one. -/
structure Community.Fresh (c : Community) : Prop where
  alliances : ∀ id, c.alliances.get id = none
  ranks : ∀ id, c.ranks.get id = none
  users : c.users.All fun member => member.alliance = none ∧ member.rank = none

end Mmog

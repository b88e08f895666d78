import Mmog.Model.Schema

/-!
# Alliances and friends

Users belong to alliances and hold ranks, which give them rights.  An alliance
keeps the sum of the scores of its members, and makes its default ranks anew
after every save.  Users become friends and members by requests.
-/

namespace Mmog

open Ruby

abbrev RankId := ℕ

/-! ## Tables -/

/-- What a rank lets its holders do. -/
structure Rights where
  canKick : Bool := false
  canMassmail : Bool := false
  canEditRanks : Bool := false
  canInvite : Bool := false
  canDisband : Bool := false
  canChangeDescription : Bool := false
  deriving DecidableEq

structure Rank extends Rights where
  alliance : AllianceId
  name : String
  standard : Bool := false
  isFounder : Bool := false
  deriving DecidableEq

structure Alliance where
  name : String
  description : Option String
  score : ℤ := 0
  deriving DecidableEq

/-- The columns of a user that alliances read and write. -/
structure Member where
  score : ℤ := 0
  alliance : Option AllianceId := none
  rank : Option RankId := none
  deriving DecidableEq

inductive RequestAction where
  | allianceInvite | friendshipInvite | other
  deriving DecidableEq

structure Request where
  action : RequestAction
  sender : UserId
  recipient : UserId
  requestvalue : ℕ
  deriving DecidableEq

structure Relationship where
  user : UserId
  friend : UserId
  deriving DecidableEq

structure Community where
  users : Table Member
  alliances : Table Alliance
  ranks : Table Rank
  requests : Table Request
  relationships : Table Relationship

abbrev CommunityAct := Action Err Community

/-! ## Names -/

/-- What `[[:space:]]` matches. -/
def isSpace (c : Char) : Bool :=
  (9 ≤ c.toNat ∧ c.toNat ≤ 13) ∨ c.toNat ∈ [0x20, 0x85, 0xA0, 0x1680, 0x2028, 0x2029, 0x202F, 0x205F, 0x3000] ∨
    (0x2000 ≤ c.toNat ∧ c.toNat ≤ 0x200A)

/-- `blank?`. -/
def isBlank (name : String) : Bool := name.toList.all isSpace

namespace Community

/-! ## Associations -/

/-- `user.alliance`, which is nil when the alliance is gone. -/
def allianceOf (c : Community) (user : UserId) : Option AllianceId :=
  (c.users.get user).bind fun member =>
    member.alliance.filter fun alliance => (c.alliances.get alliance).isSome

/-- `user.rank`. -/
def rankOf (c : Community) (user : UserId) : Option (RankId × Rank) :=
  (c.users.get user).bind fun member =>
    member.rank.bind fun id => (c.ranks.get id).map fun rank => (id, rank)

/-- `rank.alliance`. -/
def allianceOfRank (c : Community) (rank : Rank) : Option AllianceId :=
  (some rank.alliance).filter fun alliance => (c.alliances.get alliance).isSome

def scoreOf (c : Community) (user : UserId) : ℤ := ((c.users.get user).map Member.score).getD 0

def inAlliance (alliance : AllianceId) (member : Member) : Bool := member.alliance = some alliance

/-- `alliance.users.find_by_id(uid)`. -/
def memberById (c : Community) (alliance : AllianceId) (uid : UserId) : Option UserId :=
  if (c.users.get uid).any (inAlliance alliance) then some uid else none

/-- `alliance.ranks.find_by_id(id)`. -/
def rankById (c : Community) (alliance : AllianceId) (id : RankId) : Option RankId :=
  if (c.ranks.get id).any (·.alliance = alliance) then some id else none

/-- `alliance.ranks.where(standard: true).first`. -/
def standardRank (c : Community) (alliance : AllianceId) : Option RankId :=
  c.ranks.first fun rank => rank.alliance = alliance ∧ rank.standard

/-- `alliance.ranks.where(is_founder: true).first`. -/
def founderRank (c : Community) (alliance : AllianceId) : Option RankId :=
  c.ranks.first fun rank => rank.alliance = alliance ∧ rank.isFounder

def setUser (c : Community) (user : UserId) (change : Member → Member) : Community :=
  { c with users := c.users.modify user change }

/-- `rank.users << user`. -/
def giveRank (c : Community) (rank : RankId) (user : UserId) : Community :=
  c.setUser user fun member => { member with rank := some rank }

/-! ## Ranks -/

def isRankNameTaken (ranks : Table Rank) (rank : Rank) : Bool :=
  (ranks.first fun other =>
    other.alliance = rank.alliance ∧ other.name.toLower = rank.name.toLower).isSome

/-- Creates the rank if its name is present and not taken in its alliance. -/
def createRank (ranks : Table Rank) (rank : Rank) : Table Rank :=
  if isBlank rank.name ∨ isRankNameTaken ranks rank then ranks else ranks.create rank

def novice (alliance : AllianceId) : Rank := { alliance, name := "Anwärter", standard := true }

def founder (alliance : AllianceId) : Rank :=
  { alliance, name := "Oberhaupt", canKick := true, canMassmail := true, canEditRanks := true
    canInvite := true, isFounder := true, canDisband := true, canChangeDescription := true }

/-- The callback after every save of an alliance. -/
def createDefaultRanks (ranks : Table Rank) (alliance : AllianceId) : Table Rank :=
  createRank (createRank ranks (novice alliance)) (founder alliance)

/-! ## Rights -/

inductive Permission where
  | editRanks | changeDescription | massmail | invite | kick | showEdit | destroy
  deriving DecidableEq

def allows (rank : Rank) : Permission → Bool
  | .editRanks => rank.canEditRanks
  | .changeDescription => rank.canChangeDescription
  | .massmail => rank.canMassmail
  | .invite => rank.canInvite
  | .kick => rank.canKick
  | .showEdit => rank.canEditRanks || rank.canChangeDescription || rank.canMassmail ||
      rank.canInvite || rank.canKick
  | .destroy => rank.isFounder

/-- `alliance.permission?(user, action)`. -/
def permission? (c : Community) (alliance : AllianceId) (user : UserId) (action : Permission) : Bool :=
  match c.rankOf user with
  | none => false
  | some (_, rank) => c.allianceOf user = some alliance && allows rank action

end Community

open Community

/-! ## Alliances -/

namespace Alliance

/-- Saves an alliance with a change, and runs the callback. -/
def save (self : AllianceId) (change : Alliance → Alliance) : CommunityAct Unit :=
  modify fun c => { c with
    alliances := c.alliances.modify self change
    ranks := createDefaultRanks c.ranks self }

def addScore (self : AllianceId) (value : ℤ) : CommunityAct Unit :=
  save self fun row => { row with score := row.score + value }

def setDescription (self : AllianceId) (description : Option String) : CommunityAct Bool := do
  save self fun row => { row with description }
  return true

def setFounder (self : AllianceId) (newfounder : UserId) (oldfounder : Option UserId) :
    CommunityAct Unit := do
  let rank := (← get).founderRank self
  if let some oldfounder := oldfounder then
    match (← get).rankOf newfounder with
    | none => throw .noMethodError
    | some (given, _) => modify fun c => c.giveRank given oldfounder
  match rank with
  | none => throw .noMethodError
  | some rank => modify fun c => c.giveRank rank newfounder

def addUser (self : AllianceId) (user : UserId) : CommunityAct Bool := do
  if ((← get).allianceOf user).isNone then
    modify fun c => c.setUser user fun member => { member with alliance := some self }
    match (← get).standardRank self with
    | none => throw .noMethodError
    | some standard =>
        modify fun c => c.giveRank standard user
        addScore self ((← get).scoreOf user)
        return true
  else return false

/-- `alliance.users.delete(user)` and `user.rank.users.delete(user)`. -/
def deleteUser (user : UserId) : CommunityAct Unit := do
  modify fun c => c.setUser user fun member => { member with alliance := none }
  match (← get).rankOf user with
  | none => throw .noMethodError
  | some _ => modify fun c => c.setUser user fun member => { member with rank := none }

def removeUser (self : AllianceId) (user : UserId) : CommunityAct Bool := do
  if (← get).allianceOf user = some self then
    deleteUser user
    addScore self (-1 * (← get).scoreOf user)
    return true
  else return false

def changeDefaultRank (self : AllianceId) (rank : Option RankId) : CommunityAct Bool := do
  let c ← get
  let old := c.standardRank self
  match rank.bind fun id => (c.ranks.get id).map fun row => (id, row) with
  | none => return false
  | some (id, row) =>
      if some id = old ∨ row.isFounder then return false
      match old with
      | none => throw .noMethodError
      | some old =>
          modify fun c => { c with ranks := c.ranks.modify old fun rank => { rank with standard := false } }
          modify fun c => { c with ranks := c.ranks.modify id fun rank => { rank with standard := true } }
          return true

def changeUserRank (user : Option UserId) (rank : Option RankId) : CommunityAct Bool := do
  let c ← get
  match rank.bind fun id => (c.ranks.get id).map fun row => (id, row) with
  | none => return false
  | some (id, row) =>
      match user with
      | none => throw .noMethodError
      | some user =>
          if (c.allianceOf user).isNone ∨ row.isFounder then return false
          modify fun c => c.giveRank id user
          return true

end Alliance

/-! ## Users -/

namespace Member

def addScore (self : UserId) (value : ℤ) : CommunityAct Unit := do
  if let some alliance := (← get).allianceOf self then
    Alliance.addScore alliance value
  modify fun c => c.setUser self fun member => { member with score := member.score + value }

/-- The first row that says that `friend` is a friend of `user`. -/
def relationship (c : Community) (user friend : UserId) : Option ℕ :=
  c.relationships.first fun row => row.user = user ∧ row.friend = friend

def makeFriendship (self other : UserId) : CommunityAct Unit := do
  modify fun c => { c with relationships := c.relationships.create ⟨self, other⟩ }
  modify fun c => { c with relationships := c.relationships.create ⟨other, self⟩ }

def endFriendship (self other : UserId) : CommunityAct Bool := do
  let c ← get
  match relationship c other self, relationship c self other with
  | some relother, some relself =>
      modify fun c => { c with relationships := (c.relationships.destroy relother).destroy relself }
      return true
  | _, _ => return false

end Member

/-! ## Requests -/

namespace Request

def destroy (self : ℕ) : CommunityAct Unit :=
  modify fun c => { c with requests := c.requests.destroy self }

/-- What happens when a request is accepted; it stays if it asks for nothing known. -/
def launchAction (id : ℕ) (self : Request) : CommunityAct Unit := do
  match self.action with
  | .allianceInvite =>
      match (← get).allianceOf self.sender with
      | none => throw .noMethodError
      | some alliance =>
          let _ ← Alliance.addUser alliance self.recipient
          destroy id
  | .friendshipInvite =>
      Member.makeFriendship self.sender self.recipient
      destroy id
  | .other => return

end Request

end Mmog

import Mmog.Model.CommunityRequests
import Mmog.Ruby.Safe

/-!
# What the methods of alliances do

The default ranks leave the ranks there are alone.  Joining, leaving and the
change of the founder each end in one of a few states.
-/

namespace Mmog

open Ruby Action

namespace Community

/-! ## Ranks -/

theorem createRank_of_some {ranks : Table Rank} {id : RankId} {row : Rank} (rank : Rank)
    (hget : ranks.get id = some row) : (createRank ranks rank).get id = some row := by
  rw [createRank]
  split
  · exact hget
  · exact Table.get_create_of_some rank hget

theorem get_createRank {ranks : Table Rank} {rank row : Rank} {id : RankId}
    (hget : (createRank ranks rank).get id = some row) : ranks.get id = some row ∨ row = rank := by
  rw [createRank] at hget
  split at hget
  · exact Or.inl hget
  · rw [Table.get_create] at hget
    split at hget
    · cases hget
      exact Or.inr rfl
    · exact Or.inl hget

/-- Making the default ranks keeps the ranks there are. -/
theorem createDefaultRanks_of_some {ranks : Table Rank} {id : RankId} {row : Rank}
    (alliance : AllianceId) (hget : ranks.get id = some row) :
    (createDefaultRanks ranks alliance).get id = some row :=
  createRank_of_some _ (createRank_of_some _ hget)

/-- A rank after making the default ranks is an old one or one of the two. -/
theorem get_createDefaultRanks {ranks : Table Rank} {alliance : AllianceId} {row : Rank} {id : RankId}
    (hget : (createDefaultRanks ranks alliance).get id = some row) :
    ranks.get id = some row ∨ row = novice alliance ∨ row = founder alliance := by
  rcases get_createRank hget with hold | hfounder
  · rcases get_createRank hold with hold | hnovice
    · exact Or.inl hold
    · exact Or.inr (Or.inl hnovice)
  · exact Or.inr (Or.inr hfounder)

/-- Some rank of the alliance has this name, up to case. -/
def Named (ranks : Table Rank) (alliance : AllianceId) (name : String) : Prop :=
  (ranks.first fun other =>
    other.alliance = alliance ∧ other.name.toLower = name.toLower).isSome = true

instance (ranks : Table Rank) (alliance : AllianceId) (name : String) :
    Decidable (Named ranks alliance name) :=
  inferInstanceAs (Decidable (_ = true))

theorem named_of_get {ranks : Table Rank} {id : RankId} {rank : Rank}
    (hget : ranks.get id = some rank) : Named ranks rank.alliance rank.name := by
  rw [Named]
  cases hfirst : ranks.first fun other =>
      other.alliance = rank.alliance ∧ other.name.toLower = rank.name.toLower with
  | none =>
      have hfalse := Table.first_eq_none.mp hfirst id rank hget
      simp at hfalse
  | some first => rfl

theorem createRank_of_named {ranks : Table Rank} {rank : Rank}
    (hnamed : Named ranks rank.alliance rank.name) : createRank ranks rank = ranks :=
  if_pos (Or.inr hnamed)

theorem createRank_of_free {ranks : Table Rank} {rank : Rank} (hname : isBlank rank.name = false)
    (hfree : ¬ Named ranks rank.alliance rank.name) : createRank ranks rank = ranks.create rank := by
  rw [createRank, if_neg]
  rintro (hblank | htaken)
  · rw [hname] at hblank
    cases hblank
  · exact hfree htaken

theorem isBlank_novice (alliance : AllianceId) : isBlank (novice alliance).name = false := by
  change isBlank "Anwärter" = false
  decide

theorem isBlank_founder (alliance : AllianceId) : isBlank (founder alliance).name = false := by
  change isBlank "Oberhaupt" = false
  decide

/-- An alliance that has no ranks yet gets both of its default ranks. -/
theorem createDefaultRanks_of_unranked {ranks : Table Rank} {alliance : AllianceId}
    (hunranked : ranks.All fun rank => rank.alliance ≠ alliance) :
    createDefaultRanks ranks alliance = (ranks.create (novice alliance)).create (founder alliance) := by
  have hnovice : ¬ Named ranks alliance "Anwärter" := by
    intro hnamed
    obtain ⟨id, hid⟩ := Option.isSome_iff_exists.mp hnamed
    obtain ⟨rank, hget, htest⟩ := Table.first_eq_some hid
    exact hunranked id rank hget (of_decide_eq_true htest).1
  have hfounder : ¬ Named (ranks.create (novice alliance)) alliance "Oberhaupt" := by
    intro hnamed
    obtain ⟨id, hid⟩ := Option.isSome_iff_exists.mp hnamed
    obtain ⟨rank, hget, htest⟩ := Table.first_eq_some hid
    obtain ⟨halliance, hname⟩ := of_decide_eq_true htest
    rw [Table.get_create] at hget
    split at hget
    · cases hget
      exact absurd hname (by change "Anwärter".toLower ≠ "Oberhaupt".toLower; decide +kernel)
    · exact hunranked id rank hget halliance
  rw [createDefaultRanks, createRank_of_free (isBlank_novice alliance) hnovice,
    createRank_of_free (isBlank_founder alliance) hfounder]

/-! ## Associations -/

section

variable {c : Community} {user : UserId} {member : Member} {alliance : AllianceId}

theorem allianceOf_eq_some : c.allianceOf user = some alliance ↔
    ∃ member, c.users.get user = some member ∧ member.alliance = some alliance ∧
      (c.alliances.get alliance).isSome = true := by
  simp only [allianceOf, Option.bind_eq_some_iff, Option.filter_eq_some_iff]

theorem rankOf_eq_some {id : RankId} {rank : Rank} : c.rankOf user = some (id, rank) ↔
    ∃ member, c.users.get user = some member ∧ member.rank = some id ∧ c.ranks.get id = some rank := by
  simp only [rankOf, Option.bind_eq_some_iff, Option.map_eq_some_iff, Prod.mk.injEq]
  constructor
  · rintro ⟨member, hmember, id', hid, rank', hrank, rfl, rfl⟩
    exact ⟨member, hmember, hid, hrank⟩
  · rintro ⟨member, hmember, hid, hrank⟩
    exact ⟨member, hmember, id, hid, rank, hrank, rfl, rfl⟩

theorem scoreOf_eq (hget : c.users.get user = some member) : c.scoreOf user = member.score := by
  rw [scoreOf, hget]
  rfl

theorem memberById_eq_some {uid : UserId} : c.memberById alliance uid = some user ↔
    uid = user ∧ ∃ member, c.users.get user = some member ∧ member.alliance = some alliance := by
  rw [memberById]
  split
  · rename_i hany
    obtain ⟨member, hget, hin⟩ := (Option.any_eq_true _ _).mp hany
    constructor
    · rintro ⟨⟩
      exact ⟨rfl, member, hget, of_decide_eq_true hin⟩
    · rintro ⟨rfl, -⟩
      rfl
  · rename_i hany
    constructor
    · nofun
    · rintro ⟨rfl, member, hget, hin⟩
      exact absurd ((Option.any_eq_true _ _).mpr ⟨member, hget, decide_eq_true hin⟩) hany

theorem rankById_eq_some {id found : RankId} : c.rankById alliance id = some found ↔
    id = found ∧ ∃ rank, c.ranks.get id = some rank ∧ rank.alliance = alliance := by
  rw [rankById]
  split
  · rename_i hany
    obtain ⟨rank, hget, hin⟩ := (Option.any_eq_true _ _).mp hany
    constructor
    · rintro ⟨⟩
      exact ⟨rfl, rank, hget, of_decide_eq_true hin⟩
    · rintro ⟨rfl, -⟩
      rfl
  · rename_i hany
    constructor
    · nofun
    · rintro ⟨rfl, rank, hget, hin⟩
      exact absurd ((Option.any_eq_true _ _).mpr ⟨rank, hget, decide_eq_true hin⟩) hany

theorem permission?_eq_true {action : Permission} : c.permission? alliance user action = true ↔
    ∃ id rank, c.rankOf user = some (id, rank) ∧ c.allianceOf user = some alliance ∧
      allows rank action = true := by
  rw [permission?]
  cases c.rankOf user with
  | none => simp
  | some found =>
      obtain ⟨id, rank⟩ := found
      simp only [Bool.and_eq_true, decide_eq_true_eq, Option.some.injEq, Prod.mk.injEq]
      exact ⟨fun h => ⟨id, rank, ⟨rfl, rfl⟩, h⟩, fun ⟨_, _, ⟨hid, hrank⟩, h⟩ => by rwa [← hrank] at h⟩

end

/-! ## Joining and leaving -/

/-- The user has joined with this rank. -/
def joined (c : Community) (self : AllianceId) (standard : RankId) (user : UserId) : Community where
  users := c.users.modify user fun member => { member with alliance := some self, rank := some standard }
  alliances := c.alliances.modify self fun row => { row with score := row.score + c.scoreOf user }
  ranks := createDefaultRanks c.ranks self
  requests := c.requests
  relationships := c.relationships

/-- The user has left. -/
def left (c : Community) (self : AllianceId) (user : UserId) : Community where
  users := c.users.modify user fun member => { member with alliance := none, rank := none }
  alliances := c.alliances.modify self fun row => { row with score := row.score + -1 * c.scoreOf user }
  ranks := createDefaultRanks c.ranks self
  requests := c.requests
  relationships := c.relationships

theorem isSome_modify (alliances : Table Alliance) (self : AllianceId) (change : Alliance → Alliance)
    (alliance : AllianceId) :
    ((alliances.modify self change).get alliance).isSome = (alliances.get alliance).isSome := by
  rw [Table.get_modify]
  split
  · exact Option.isSome_map
  · rfl

theorem setUser_setUser (c : Community) (user : UserId) (first second : Member → Member) :
    (c.setUser user first).setUser user second = c.setUser user (second ∘ first) := by
  simp only [setUser, Table.modify_modify]

theorem scoreOf_setUser (c : Community) (user : UserId) {change : Member → Member}
    (hscore : ∀ member, (change member).score = member.score) (other : UserId) :
    (c.setUser user change).scoreOf other = c.scoreOf other := by
  rw [scoreOf, scoreOf, setUser, Table.get_modify]
  split
  · cases c.users.get other with
    | none => rfl
    | some member => exact hscore member
  · rfl

end Community

namespace Alliance

open Community

variable {c : Community} {self : AllianceId} {user : UserId}

theorem addUser_refused (hsome : (c.allianceOf user).isSome = true) :
    (addUser self user).run c = .ok false c := by
  rw [addUser, run_bind_get, if_neg (by simpa using Option.isSome_iff_ne_none.mp hsome)]
  rfl

theorem addUser_stuck (hnone : c.allianceOf user = none) (hstandard : c.standardRank self = none) :
    (addUser self user).run c = .error .noMethodError
      (c.setUser user fun member => { member with alliance := some self }) := by
  rw [addUser, run_bind_get, if_pos (Option.isNone_iff_eq_none.mpr hnone), run_bind_modify, run_bind_get]
  have hset : (c.setUser user fun member => { member with alliance := some self }).standardRank self = none := hstandard
  rw [hset]
  rfl

theorem addUser_joins {standard : RankId} (hnone : c.allianceOf user = none)
    (hstandard : c.standardRank self = some standard) :
    (addUser self user).run c = .ok true (c.joined self standard user) := by
  rw [addUser, run_bind_get, if_pos (Option.isNone_iff_eq_none.mpr hnone), run_bind_modify, run_bind_get]
  have hset : (c.setUser user fun member => { member with alliance := some self }).standardRank self =
    some standard := hstandard
  rw [hset]
  dsimp only
  rw [run_bind_modify, run_bind_get, giveRank, setUser_setUser, scoreOf_setUser]
  · rfl
  · exact fun _ => rfl

/-- The user is no member, or the default rank is missing, or the user joins with it. -/
theorem addUser_outcome (c : Community) (self : AllianceId) (user : UserId) :
    after ((addUser self user).run c) = c ∨
      c.allianceOf user = none ∧ c.standardRank self = none ∧ after ((addUser self user).run c) =
        c.setUser user (fun member => { member with alliance := some self }) ∨
      ∃ standard, c.allianceOf user = none ∧ c.standardRank self = some standard ∧
        after ((addUser self user).run c) = c.joined self standard user := by
  cases hnone : c.allianceOf user with
  | some alliance =>
      rw [addUser_refused (by rw [hnone]; rfl)]
      exact Or.inl rfl
  | none =>
      cases hstandard : c.standardRank self with
      | none =>
          rw [addUser_stuck hnone hstandard]
          exact Or.inr (Or.inl ⟨rfl, rfl, rfl⟩)
      | some standard =>
          rw [addUser_joins hnone hstandard]
          exact Or.inr (Or.inr ⟨standard, rfl, rfl, rfl⟩)

theorem deleteUser_of_rank {id : RankId} {rank : Rank} (hrank : c.rankOf user = some (id, rank)) :
    (deleteUser user).run c = .ok ⟨⟩
      (c.setUser user fun member => { member with alliance := none, rank := none }) := by
  have hsame : (c.setUser user fun member => { member with alliance := none }).rankOf user =
      some (id, rank) := by
    obtain ⟨member, hget, hid, hrow⟩ := rankOf_eq_some.mp hrank
    exact rankOf_eq_some.mpr ⟨_, Table.get_modify_self _ hget, hid, hrow⟩
  rw [deleteUser, run_bind_modify, run_bind_get, hsame]
  dsimp only
  rw [run_modify, setUser_setUser]
  rfl

theorem deleteUser_of_none (hrank : c.rankOf user = none) :
    (deleteUser user).run c = .error .noMethodError
      (c.setUser user fun member => { member with alliance := none }) := by
  have hsame : (c.setUser user fun member => { member with alliance := none }).rankOf user = none := by
    rw [rankOf, setUser, Table.get_modify, if_pos rfl]
    rw [rankOf] at hrank
    cases hget : c.users.get user with
    | none => rfl
    | some member =>
        rw [hget] at hrank
        exact hrank
  rw [deleteUser, run_bind_modify, run_bind_get, hsame]
  rfl

theorem removeUser_refused (hother : c.allianceOf user ≠ some self) :
    (removeUser self user).run c = .ok false c := by
  rw [removeUser, run_bind_get, if_neg hother]
  rfl

theorem removeUser_stuck (hmember : c.allianceOf user = some self) (hrank : c.rankOf user = none) :
    (removeUser self user).run c = .error .noMethodError
      (c.setUser user fun member => { member with alliance := none }) := by
  rw [removeUser, run_bind_get, if_pos hmember]
  exact run_bind_of_error (deleteUser_of_none hrank) _

theorem removeUser_leaves {id : RankId} {rank : Rank} (hmember : c.allianceOf user = some self)
    (hrank : c.rankOf user = some (id, rank)) :
    (removeUser self user).run c = .ok true (c.left self user) := by
  rw [removeUser, run_bind_get, if_pos hmember]
  refine (run_bind_of_ok (deleteUser_of_rank hrank) _).trans ?_
  rw [run_bind_get, scoreOf_setUser]
  · rfl
  · exact fun _ => rfl

/-- The user is no member, or a member without a rank, or leaves. -/
theorem removeUser_outcome (c : Community) (self : AllianceId) (user : UserId) :
    after ((removeUser self user).run c) = c ∨
      c.allianceOf user = some self ∧ c.rankOf user = none ∧ after ((removeUser self user).run c) =
        c.setUser user (fun member => { member with alliance := none }) ∨
      ∃ id rank, c.allianceOf user = some self ∧ c.rankOf user = some (id, rank) ∧
        after ((removeUser self user).run c) = c.left self user := by
  by_cases hmember : c.allianceOf user = some self
  · cases hrank : c.rankOf user with
    | none =>
        rw [removeUser_stuck hmember hrank]
        exact Or.inr (Or.inl ⟨hmember, rfl, rfl⟩)
    | some found =>
        rw [removeUser_leaves hmember hrank]
        exact Or.inr (Or.inr ⟨found.1, found.2, hmember, rfl, rfl⟩)
  · rw [removeUser_refused hmember]
    exact Or.inl rfl

/-! ## Founders and ranks -/

theorem setFounder_first (self : AllianceId) (newfounder : UserId) :
    after ((setFounder self newfounder none).run c) =
      ((c.founderRank self).map fun founder => c.giveRank founder newfounder).getD c := by
  rw [setFounder, run_bind_get]
  dsimp only
  cases c.founderRank self <;> rfl

theorem setFounder_of_none {newfounder : UserId} (hrank : c.rankOf newfounder = none)
    (oldfounder : UserId) : after ((setFounder self newfounder (some oldfounder)).run c) = c := by
  rw [setFounder, run_bind_get]
  dsimp only
  rw [run_bind_get, hrank]
  rfl

/-- The old founder gets the rank of the new one, who gets the founder's rank. -/
theorem setFounder_of_rank {newfounder : UserId} {given : RankId} {rank : Rank}
    (hrank : c.rankOf newfounder = some (given, rank)) (oldfounder : UserId) :
    after ((setFounder self newfounder (some oldfounder)).run c) =
      ((c.founderRank self).map fun founder =>
        (c.giveRank given oldfounder).giveRank founder newfounder).getD
          (c.giveRank given oldfounder) := by
  rw [setFounder, run_bind_get]
  dsimp only
  rw [run_bind_get, hrank]
  dsimp only
  rw [run_bind_modify]
  cases c.founderRank self <;> rfl

/-- The rank is given to a user who is in an alliance, if it is no founder's rank. -/
theorem changeUserRank_outcome (c : Community) (user : Option UserId) (rank : Option RankId) :
    after ((changeUserRank user rank).run c) = c ∨
      ∃ member id row, user = some member ∧ rank = some id ∧ c.ranks.get id = some row ∧
        row.isFounder = false ∧ (c.allianceOf member).isSome = true ∧
        after ((changeUserRank user rank).run c) = c.giveRank id member := by
  rw [changeUserRank, run_bind_get]
  cases rank with
  | none => exact Or.inl rfl
  | some id =>
      cases hget : c.ranks.get id with
      | none =>
          rw [Option.bind_some, hget]
          exact Or.inl rfl
      | some row =>
          rw [Option.bind_some, hget]
          cases user with
          | none => exact Or.inl rfl
          | some member =>
              dsimp only [Option.map_some]
              split
              · exact Or.inl rfl
              · rename_i hallowed
                rw [not_or, Bool.not_eq_true, Option.isNone_eq_false_iff] at hallowed
                exact Or.inr ⟨member, id, row, rfl, rfl, hget, by simpa using hallowed.2, hallowed.1, rfl⟩

/-- Another rank of no founder's becomes the default one. -/
theorem changeDefaultRank_outcome (c : Community) (self : AllianceId) (rank : Option RankId) :
    after ((changeDefaultRank self rank).run c) = c ∨
      ∃ old id row, c.standardRank self = some old ∧ rank = some id ∧ c.ranks.get id = some row ∧
        id ≠ old ∧ row.isFounder = false ∧ after ((changeDefaultRank self rank).run c) =
          { c with
            ranks := (c.ranks.modify old fun rank => { rank with standard := false }).modify id
              fun rank => { rank with standard := true } } := by
  rw [changeDefaultRank, run_bind_get]
  cases rank with
  | none => exact Or.inl rfl
  | some id =>
      cases hget : c.ranks.get id with
      | none =>
          rw [Option.bind_some, hget]
          exact Or.inl rfl
      | some row =>
          rw [Option.bind_some, hget]
          dsimp only [Option.map_some]
          split
          · exact Or.inl rfl
          · rename_i hallowed
            rw [not_or, Bool.not_eq_true] at hallowed
            cases hold : c.standardRank self with
            | none => exact Or.inl rfl
            | some old =>
                refine Or.inr ⟨old, id, row, rfl, rfl, hget, ?_, hallowed.2, rfl⟩
                rintro rfl
                exact hallowed.1 hold.symm

end Alliance

/-- What is done with an alliance is done with one that is there. -/
theorem after_setAlliance {P : Community → Prop} {α : Type} {c : Community} {alliance : AllianceId}
    {next : CommunityAct α} (hgone : P c)
    (hnext : (c.alliances.get alliance).isSome = true → P (after (next.run c))) :
    P (after ((setAlliance alliance >>= fun _ => next).run c)) := by
  rw [setAlliance, bind_assoc, run_bind_get]
  cases hlive : c.alliances.get alliance with
  | none => exact hgone
  | some row =>
      rw [if_neg (by simp), run_bind_pure]
      exact hnext (by rw [hlive]; rfl)

theorem setAlliance_safe {I : Community → Prop} {alliance : AllianceId} {next : CommunityAct Unit}
    (hnext : Safe (fun c => I c ∧ (c.alliances.get alliance).isSome = true) next anything) :
    Safe I (setAlliance alliance >>= fun _ => next) anything :=
  fun _ hc => ⟨after_setAlliance hc fun hlive => (hnext.after ⟨hc, hlive⟩).1, fun _ _ => trivial⟩

/-! ## Requests -/

/-- The request that a token stands for, if the user is its recipient. -/
def Community.pending (c : Community) (user : UserId) (token : ℕ) : Option (ℕ × Request) :=
  (c.requests.first fun request => request.requestvalue = token).bind fun id =>
    ((c.requests.get id).filter fun request => request.recipient = user).map fun request => (id, request)

theorem reaction_of_none {c : Community} {user : UserId} {token : ℕ} (hnone : c.pending user token = none)
    (answer : RequestsController.Answer) :
    (RequestsController.reaction user answer token).run c = .ok ⟨⟩ c := by
  rw [RequestsController.reaction, run_bind_get]
  rw [Community.pending] at hnone
  cases hfirst : c.requests.first fun request => request.requestvalue = token with
  | none => rfl
  | some id =>
      rw [hfirst, Option.bind_some, Option.map_eq_none_iff] at hnone
      cases hget : c.requests.get id with
      | none =>
          dsimp only
          rw [hget]
          rfl
      | some request =>
          rw [hget, Option.filter_eq_none_iff] at hnone
          dsimp only
          rw [hget]
          dsimp only
          rw [if_neg fun heq => hnone request rfl (decide_eq_true heq)]
          rfl

theorem reaction_of_pending {c : Community} {user : UserId} {token id : ℕ} {request : Request}
    (hpending : c.pending user token = some (id, request)) (answer : RequestsController.Answer) :
    (RequestsController.reaction user answer token).run c = match answer with
      | .yes => (request.launchAction id).run c
      | .no => (Request.destroy id).run c
      | .other => .ok ⟨⟩ c := by
  rw [RequestsController.reaction, run_bind_get]
  obtain ⟨id', hfirst, hfound⟩ := Option.bind_eq_some_iff.mp hpending
  obtain ⟨request', hfilter, hpair⟩ := Option.map_eq_some_iff.mp hfound
  cases hpair
  obtain ⟨hget, hrecipient⟩ := Option.filter_eq_some_iff.mp hfilter
  rw [hfirst]
  dsimp only
  rw [hget]
  dsimp only
  rw [if_pos (of_decide_eq_true hrecipient)]
  cases answer <;> rfl

section Requests

variable {I : Community → Prop} (hrequests : ∀ c requests, I c → I { c with requests })

include hrequests

theorem createRequest_safe (currentUser : UserId) (action : RequestAction) (recipient : Option UserId)
    (requestvalue : ℕ) :
    Safe I (RequestsController.create currentUser action recipient requestvalue) anything := by
  cases recipient with
  | none => exact Safe.pure trivial
  | some recipient =>
      have hdestroy : ∀ id, Safe I (Request.destroy id) anything :=
        fun id => Safe.modify fun c hc => hrequests c _ hc
      refine Safe.get.bind fun c _ => (Safe.modify fun c hc => hrequests c _ hc).bind fun _ _ => ?_
      refine Safe.get.bind fun c _ => Safe.ite (fun _ => hdestroy _) fun _ => ?_
      refine Safe.ite (fun _ => hdestroy _) fun _ => ?_
      exact Safe.ite (fun _ => Safe.throw _ _) fun _ => Safe.pure trivial

/-- Accepting a request keeps what new friends keep, and what a new member of an alliance keeps. -/
theorem reaction_safe (hfriends : ∀ self other, Safe I (Member.makeFriendship self other) anything)
    (hjoin : ∀ alliance user,
      Safe (fun c => I c ∧ (c.alliances.get alliance).isSome = true) (Alliance.addUser alliance user) anything)
    (currentUser : UserId) (answer : RequestsController.Answer) (token : ℕ) :
    Safe I (RequestsController.reaction currentUser answer token) anything := by
  intro c hc
  refine ⟨?_, fun _ _ => trivial⟩
  cases hpending : c.pending currentUser token with
  | none =>
      rw [reaction_of_none hpending]
      exact hc
  | some found =>
      rw [reaction_of_pending hpending]
      cases answer with
      | no => exact hrequests c _ hc
      | other => exact hc
      | yes =>
          dsimp only
          rw [Request.launchAction]
          cases found.2.action with
          | other => exact hc
          | friendshipInvite =>
              exact ((hfriends _ _).bind fun _ _ => Safe.modify fun c hc => hrequests c _ hc).after hc
          | allianceInvite =>
              dsimp only
              rw [run_bind_get]
              cases halliance : c.allianceOf found.2.sender with
              | none => exact hc
              | some alliance =>
                  obtain ⟨-, -, -, hlive⟩ := Community.allianceOf_eq_some.mp halliance
                  exact (hjoin alliance found.2.recipient).after_bind ⟨hc, hlive⟩ (fun _ hnext => hnext.1)
                    fun _ next _ hnext => hrequests next _ hnext.1

end Requests

namespace Community

/-- Two users, of whom nobody is in an alliance. -/
def sampleCommunity : Community where
  users := (Table.empty.create { score := 30 }).create { score := 12 }
  alliances := Table.empty
  ranks := Table.empty
  requests := Table.empty
  relationships := Table.empty

theorem sampleCommunity_fresh : sampleCommunity.Fresh where
  alliances _ := rfl
  ranks _ := rfl
  users := ((Table.all_empty _).create ⟨rfl, rfl⟩).create ⟨rfl, rfl⟩

end Community

end Mmog

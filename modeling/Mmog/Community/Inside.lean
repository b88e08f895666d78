import Mmog.Community.Outcome

/-!
# Changes inside one alliance

An alliance consists of its description, its ranks, and its members with
theirs.  What is done with one alliance changes no other.
-/

namespace Mmog

open Ruby Action

namespace Community

/-! ## What an alliance consists of -/

def ofAlliance (alliance : AllianceId) (rank : Rank) : Bool := rank.alliance = alliance

/-- The alliance, its members and their ranks, and its ranks are as before. -/
structure Kept (c next : Community) (alliance : AllianceId) : Prop where
  row : (next.alliances.get alliance).map Alliance.description =
    (c.alliances.get alliance).map Alliance.description
  members : ∀ user, (next.users.pick (inAlliance alliance) user).map Member.rank =
    (c.users.pick (inAlliance alliance) user).map Member.rank
  ranks : ∀ id, next.ranks.pick (ofAlliance alliance) id = c.ranks.pick (ofAlliance alliance) id

theorem Kept.refl (c : Community) (alliance : AllianceId) : Kept c c alliance :=
  ⟨rfl, fun _ => rfl, fun _ => rfl⟩

theorem Kept.trans {c middle next : Community} {alliance : AllianceId}
    (hfirst : Kept c middle alliance) (hsecond : Kept middle next alliance) : Kept c next alliance where
  row := hsecond.row.trans hfirst.row
  members user := (hsecond.members user).trans (hfirst.members user)
  ranks id := (hsecond.ranks id).trans (hfirst.ranks id)

/-- The alliance was destroyed.  Its id is not given again. -/
def Gone (c : Community) (alliance : AllianceId) : Prop :=
  alliance < c.alliances.nextId ∧ c.alliances.get alliance = none

instance (c : Community) (alliance : AllianceId) : Decidable (c.Gone alliance) :=
  inferInstanceAs (Decidable (_ ∧ _))

/-- All other alliances are as before, those that are not founded yet included. -/
def Apart (alliance : AllianceId) (c next : Community) : Prop :=
  ∀ other, other ≠ alliance → ¬ c.Gone other → ¬ next.Gone other ∧ Kept c next other

namespace Apart

variable {c middle next : Community} {alliance : AllianceId}

theorem refl (alliance : AllianceId) (c : Community) : Apart alliance c c :=
  fun other _ hgone => ⟨hgone, Kept.refl c other⟩

theorem trans (hfirst : Apart alliance c middle) (hsecond : Apart alliance middle next) :
    Apart alliance c next := by
  intro other hne hgone
  obtain ⟨hmiddle, hkept⟩ := hfirst other hne hgone
  obtain ⟨hnext, hkept'⟩ := hsecond other hne hmiddle
  exact ⟨hnext, hkept.trans hkept'⟩

/-- A user changes who is a member neither of another alliance nor of one yet to be founded. -/
theorem setUser {user : UserId} {change : Member → Member}
    (hloose : ∀ member other, c.users.get user = some member → other ≠ alliance → ¬ c.Gone other →
      member.alliance ≠ some other ∧ (change member).alliance ≠ some other) :
    Apart alliance c (c.setUser user change) := by
  intro other hne hgone
  refine ⟨hgone, rfl, fun found => congrArg _ (Table.pick_modify_of_not ?_ found), fun _ => rfl⟩
  intro member hget
  obtain ⟨hbefore, hafter⟩ := hloose member other hget hne hgone
  exact ⟨decide_eq_false hbefore, decide_eq_false hafter⟩

/-- Only ranks of the alliance change. -/
theorem setRanks {ranks : Table Rank}
    (hranks : ∀ other, other ≠ alliance → ∀ id,
      ranks.pick (ofAlliance other) id = c.ranks.pick (ofAlliance other) id) :
    Apart alliance c { c with ranks } :=
  fun other hne hgone => ⟨hgone, rfl, fun _ => rfl, hranks other hne⟩

theorem setRequests (requests : Table Request) : Apart alliance c { c with requests } :=
  fun _ _ hgone => ⟨hgone, rfl, fun _ => rfl, fun _ => rfl⟩

theorem setAlliances {alliances : Table Alliance} (hnext : alliances.nextId = c.alliances.nextId)
    (hother : ∀ other, other ≠ alliance → alliances.get other = c.alliances.get other) :
    Apart alliance c { c with alliances } := by
  intro other hne hgone
  refine ⟨?_, congrArg _ (hother other hne), fun _ => rfl, fun _ => rfl⟩
  change ¬ (other < alliances.nextId ∧ alliances.get other = none)
  rw [hnext, hother other hne]
  exact hgone

end Apart

/-! ## Ranks of other alliances -/

section Ranks

variable {ranks : Table Rank} {alliance other : AllianceId}

theorem pick_createRank {rank : Rank} (hne : other ≠ rank.alliance) (id : RankId) :
    (createRank ranks rank).pick (ofAlliance other) id = ranks.pick (ofAlliance other) id := by
  have hrow : ofAlliance other rank = false := decide_eq_false hne.symm
  rw [createRank]
  split
  · rfl
  · exact Table.pick_create_of_not _ hrow id

theorem pick_createDefaultRanks (hne : other ≠ alliance) (id : RankId) :
    (createDefaultRanks ranks alliance).pick (ofAlliance other) id = ranks.pick (ofAlliance other) id :=
  (pick_createRank hne id).trans (pick_createRank hne id)

theorem pick_modify {id : RankId} {rank : Rank} {change : Rank → Rank} (hget : ranks.get id = some rank)
    (hin : rank.alliance = alliance) (hkeep : (change rank).alliance = rank.alliance)
    (hne : other ≠ alliance) (found : RankId) :
    (ranks.modify id change).pick (ofAlliance other) found = ranks.pick (ofAlliance other) found := by
  refine Table.pick_modify_of_not (fun row hrow => ?_) found
  obtain rfl : rank = row := Option.some.inj (hget.symm.trans hrow)
  have hother : rank.alliance ≠ other := fun heq => hne (heq.symm.trans hin)
  exact ⟨decide_eq_false hother, decide_eq_false (hkeep ▸ hother)⟩

end Ranks

/-! ## The invariant -/

/-- Ranks belong to alliances that are there, and users have ranks of their own alliances. -/
structure Rooted (c : Community) : Prop where
  ranks : c.ranks.All fun rank => (c.alliances.get rank.alliance).isSome = true
  users : c.users.All fun member =>
    (∀ alliance, member.alliance = some alliance → alliance < c.alliances.nextId) ∧
      ∀ id, member.rank = some id → ∃ rank, c.ranks.get id = some rank ∧ member.alliance = some rank.alliance

/-- The user is a member of the alliance and holds one of its ranks, which gives the right. -/
def Entitled (c : Community) (alliance : AllianceId) (user : UserId) (action : Permission) : Prop :=
  ∃ member id rank, c.users.get user = some member ∧ member.alliance = some alliance ∧
    member.rank = some id ∧ c.ranks.get id = some rank ∧ rank.alliance = alliance ∧ allows rank action = true

namespace Rooted

variable {c : Community} {alliance : AllianceId} {user : UserId} {member : Member}

theorem entitled (hrooted : c.Rooted) {action : Permission}
    (hpermission : c.permission? alliance user action = true) : c.Entitled alliance user action := by
  obtain ⟨id, rank, hrank, halliance, hallows⟩ := permission?_eq_true.mp hpermission
  obtain ⟨member, hget, hid, hrow⟩ := rankOf_eq_some.mp hrank
  obtain ⟨member', hget', hin, -⟩ := allianceOf_eq_some.mp halliance
  obtain rfl : member = member' := Option.some.inj (hget.symm.trans hget')
  obtain ⟨rank', hrow', hrankin⟩ := (hrooted.users user member hget).2 id hid
  obtain rfl : rank = rank' := Option.some.inj (hrow.symm.trans hrow')
  exact ⟨member, id, rank, hget, hin, hid, hrow, Option.some.inj (hrankin.symm.trans hin), hallows⟩

/-- A user without an alliance is a member of none that is there or yet to be founded. -/
theorem not_member (hrooted : c.Rooted) (hnone : c.allianceOf user = none)
    (hget : c.users.get user = some member) (hgone : ¬ c.Gone alliance) : member.alliance ≠ some alliance := by
  intro hin
  have hlt := (hrooted.users user member hget).1 alliance hin
  have hlive : (c.alliances.get alliance).isSome = true := by
    by_contra hnot
    exact hgone ⟨hlt, by simpa using hnot⟩
  rw [allianceOf_eq_some.mpr ⟨member, hget, hin, hlive⟩] at hnone
  cases hnone

/-- A user without an alliance has no rank. -/
theorem rank_eq_none (hrooted : c.Rooted) (hnone : c.allianceOf user = none)
    (hget : c.users.get user = some member) : member.rank = none := by
  cases hid : member.rank with
  | none => rfl
  | some id =>
      obtain ⟨rank, hrow, hin⟩ := (hrooted.users user member hget).2 id hid
      rw [allianceOf_eq_some.mpr ⟨member, hget, hin, hrooted.ranks id rank hrow⟩] at hnone
      cases hnone

end Rooted

/-- The user is a member of no alliance but this one. -/
def Loose (c : Community) (alliance : AllianceId) (user : UserId) : Prop :=
  ∀ member other, c.users.get user = some member → other ≠ alliance → ¬ c.Gone other →
    member.alliance ≠ some other

theorem loose_of_none {c : Community} (hrooted : c.Rooted) {user : UserId}
    (hnone : c.allianceOf user = none) (alliance : AllianceId) : c.Loose alliance user :=
  fun _ _ hget _ hgone => hrooted.not_member hnone hget hgone

theorem loose_of_member {c : Community} {alliance : AllianceId} {user : UserId} {member : Member}
    (hget : c.users.get user = some member) (hin : member.alliance = some alliance) :
    c.Loose alliance user := by
  intro found other hfound hne _ hother
  obtain rfl : member = found := Option.some.inj (hget.symm.trans hfound)
  exact hne (Option.some.inj (hother.symm.trans hin))

/-! ## Changes inside one alliance -/

/-- Nothing changed outside of an alliance. -/
structure Within (alliance : AllianceId) (c next : Community) : Prop where
  rooted : next.Rooted
  apart : Apart alliance c next

/-- Nothing changed outside of an alliance, which is there. -/
structure Inside (alliance : AllianceId) (c next : Community) : Prop extends Within alliance c next where
  live : (next.alliances.get alliance).isSome = true

theorem Rooted.inside {c : Community} (hrooted : c.Rooted) {alliance : AllianceId}
    (hlive : (c.alliances.get alliance).isSome = true) : Inside alliance c c :=
  ⟨⟨hrooted, Apart.refl alliance c⟩, hlive⟩

namespace Inside

variable {c next : Community} {alliance : AllianceId} {user : UserId} {member : Member}

theorem lt_nextId (hinside : Inside alliance c next) : alliance < next.alliances.nextId := by
  obtain ⟨row, hget⟩ := Option.isSome_iff_exists.mp hinside.live
  exact Table.lt_nextId hget

theorem setRequests (hinside : Inside alliance c next) (requests : Table Request) :
    Inside alliance c { next with requests } :=
  ⟨⟨⟨hinside.rooted.ranks, hinside.rooted.users⟩, hinside.apart.trans (Apart.setRequests _)⟩, hinside.live⟩

/-- A user who is loose leaves, or is a member of the alliance from now on. -/
theorem setUser (hinside : Inside alliance c next) {change : Member → Member}
    (hloose : next.Loose alliance user)
    (hafter : ∀ member, next.users.get user = some member →
      (change member).alliance = none ∧ (change member).rank = none ∨
        (change member).alliance = some alliance ∧ ∀ id, (change member).rank = some id →
          ∃ rank, next.ranks.get id = some rank ∧ rank.alliance = alliance) :
    Inside alliance c (next.setUser user change) := by
  refine ⟨⟨⟨hinside.rooted.ranks, ?_⟩, hinside.apart.trans (Apart.setUser ?_)⟩, hinside.live⟩
  · refine hinside.rooted.users.modify fun member hget => ?_
    rcases hafter member hget with ⟨halliance, hrank⟩ | ⟨halliance, hrank⟩
    · rw [halliance, hrank]
      exact ⟨nofun, nofun⟩
    · rw [halliance]
      refine ⟨fun other hother => Option.some.inj hother ▸ hinside.lt_nextId, fun id hid => ?_⟩
      obtain ⟨rank, hrow, hin⟩ := hrank id hid
      exact ⟨rank, hrow, by rw [hin]⟩
  · intro member other hget hne hgone
    refine ⟨hloose member other hget hne hgone, fun hother => ?_⟩
    rcases hafter member hget with ⟨halliance, -⟩ | ⟨halliance, -⟩
    · rw [halliance] at hother
      cases hother
    · exact hne (Option.some.inj (hother.symm.trans halliance))

theorem giveRank (hinside : Inside alliance c next) (hget : next.users.get user = some member)
    (hin : member.alliance = some alliance) {id : RankId} {rank : Rank}
    (hrow : next.ranks.get id = some rank) (hrowin : rank.alliance = alliance) :
    Inside alliance c (next.giveRank id user) := by
  refine hinside.setUser (loose_of_member hget hin) fun found hfound => Or.inr ?_
  obtain rfl : member = found := Option.some.inj (hget.symm.trans hfound)
  exact ⟨hin, fun other hother => ⟨rank, Option.some.inj hother ▸ hrow, hrowin⟩⟩

theorem save (hinside : Inside alliance c next) (change : Alliance → Alliance) :
    Inside alliance c { next with
      alliances := next.alliances.modify alliance change
      ranks := createDefaultRanks next.ranks alliance } := by
  have hsome : ∀ other, ((next.alliances.modify alliance change).get other).isSome =
      (next.alliances.get other).isSome := isSome_modify _ _ _
  refine ⟨⟨⟨fun id rank hget => ?_, fun user member hget => ?_⟩, hinside.apart.trans ?_⟩,
    (hsome alliance).trans hinside.live⟩
  · change ((next.alliances.modify alliance change).get rank.alliance).isSome = true
    rw [hsome]
    rcases get_createDefaultRanks hget with hold | rfl | rfl
    · exact hinside.rooted.ranks id rank hold
    · exact hinside.live
    · exact hinside.live
  · obtain ⟨hlt, hrank⟩ := hinside.rooted.users user member hget
    refine ⟨hlt, fun id hid => ?_⟩
    obtain ⟨rank, hrow, hin⟩ := hrank id hid
    exact ⟨rank, createDefaultRanks_of_some alliance hrow, hin⟩
  · refine (Apart.setRanks fun other hne => pick_createDefaultRanks hne).trans ?_
    exact Apart.setAlliances rfl fun other hne => Table.get_modify_of_ne _ _ hne

/-- A rank of the alliance changes and stays in it. -/
theorem modifyRank (hinside : Inside alliance c next) {id : RankId} {rank : Rank} {change : Rank → Rank}
    (hget : next.ranks.get id = some rank) (hin : rank.alliance = alliance)
    (hkeep : (change rank).alliance = rank.alliance) :
    Inside alliance c { next with ranks := next.ranks.modify id change } := by
  refine ⟨⟨⟨?_, fun user member hmember => ?_⟩, hinside.apart.trans ?_⟩, hinside.live⟩
  · refine hinside.rooted.ranks.modify fun row hrow => ?_
    obtain rfl : rank = row := Option.some.inj (hget.symm.trans hrow)
    rw [hkeep]
    exact hinside.rooted.ranks id rank hget
  · obtain ⟨hlt, hrank⟩ := hinside.rooted.users user member hmember
    refine ⟨hlt, fun other hother => ?_⟩
    obtain ⟨row, hrow, hrowin⟩ := hrank other hother
    by_cases heq : other = id
    · subst heq
      obtain rfl : rank = row := Option.some.inj (hget.symm.trans hrow)
      exact ⟨_, Table.get_modify_self change hget, by rw [hkeep]; exact hrowin⟩
    · exact ⟨row, by rw [← hrow]; exact Table.get_modify_of_ne _ _ heq, hrowin⟩
  · exact Apart.setRanks fun other hne => pick_modify hget hin hkeep hne

theorem createRank (hinside : Inside alliance c next) {rank : Rank} (hin : rank.alliance = alliance) :
    Inside alliance c { next with ranks := Community.createRank next.ranks rank } := by
  refine ⟨⟨⟨fun id row hget => ?_, fun user member hmember => ?_⟩, hinside.apart.trans ?_⟩, hinside.live⟩
  · rcases get_createRank hget with hold | rfl
    · exact hinside.rooted.ranks id row hold
    · rw [hin]
      exact hinside.live
  · obtain ⟨hlt, hrank⟩ := hinside.rooted.users user member hmember
    refine ⟨hlt, fun id hid => ?_⟩
    obtain ⟨row, hrow, hrowin⟩ := hrank id hid
    exact ⟨row, createRank_of_some rank hrow, hrowin⟩
  · exact Apart.setRanks fun other hne => pick_createRank (by rw [hin]; exact hne)

/-- A rank of the alliance that nobody holds is destroyed. -/
theorem destroyRank (hinside : Inside alliance c next) {id : RankId} {rank : Rank}
    (hget : next.ranks.get id = some rank) (hin : rank.alliance = alliance)
    (hunused : next.users.All fun member => member.rank ≠ some id) :
    Inside alliance c { next with ranks := next.ranks.destroy id } := by
  refine ⟨⟨⟨hinside.rooted.ranks.destroy id, fun user member hmember => ?_⟩, hinside.apart.trans ?_⟩,
    hinside.live⟩
  · obtain ⟨hlt, hrank⟩ := hinside.rooted.users user member hmember
    refine ⟨hlt, fun other hother => ?_⟩
    obtain ⟨row, hrow, hrowin⟩ := hrank other hother
    have hne : other ≠ id := fun heq => hunused user member hmember (heq ▸ hother)
    exact ⟨row, by rw [← hrow]; exact Table.get_destroy_of_ne _ hne, hrowin⟩
  · refine Apart.setRanks fun other hne => Table.pick_destroy_of_not fun row hrow => ?_
    obtain rfl : rank = row := Option.some.inj (hget.symm.trans hrow)
    exact decide_eq_false fun heq => hne (heq.symm.trans hin)

/-! ## Methods -/

theorem saved (change : Alliance → Alliance) :
    Safe (Inside alliance c) (Alliance.save alliance change) anything :=
  Safe.modify fun _ hinside => hinside.save change

theorem addUser (user : UserId) : Safe (Inside alliance c) (Alliance.addUser alliance user) anything := by
  intro next hinside
  refine ⟨?_, fun _ _ => trivial⟩
  rcases Alliance.addUser_outcome next alliance user with hsame | ⟨hnone, -, hstuck⟩ |
    ⟨standard, hnone, hstandard, hjoined⟩
  · rw [hsame]
    exact hinside
  · rw [hstuck]
    refine hinside.setUser (loose_of_none hinside.rooted hnone alliance) fun member hget => Or.inr ⟨rfl, ?_⟩
    intro id hid
    rw [show member.rank = none from hinside.rooted.rank_eq_none hnone hget] at hid
    cases hid
  · rw [hjoined]
    obtain ⟨rank, hrow, htest⟩ := Table.first_eq_some hstandard
    have hset : Inside alliance c (next.setUser user fun member =>
        { member with alliance := some alliance, rank := some standard }) := by
      refine hinside.setUser (loose_of_none hinside.rooted hnone alliance) fun member hget => Or.inr ⟨rfl, ?_⟩
      intro id hid
      exact ⟨rank, Option.some.inj hid ▸ hrow, (of_decide_eq_true htest).1⟩
    exact hset.save _

theorem removeUser (user : UserId) :
    Safe (Inside alliance c) (Alliance.removeUser alliance user) anything := by
  intro next hinside
  refine ⟨?_, fun _ _ => trivial⟩
  rcases Alliance.removeUser_outcome next alliance user with hsame | ⟨hmember, hrank, hstuck⟩ |
    ⟨id, rank, hmember, -, hleft⟩
  · rw [hsame]
    exact hinside
  · rw [hstuck]
    obtain ⟨member, hget, hin, -⟩ := allianceOf_eq_some.mp hmember
    refine hinside.setUser (loose_of_member hget hin) fun found hfound => Or.inl ⟨rfl, ?_⟩
    cases hid : found.rank with
    | none => rfl
    | some id =>
        obtain ⟨rank, hrow, -⟩ := (hinside.rooted.users user found hfound).2 id hid
        rw [rankOf_eq_some.mpr ⟨found, hfound, hid, hrow⟩] at hrank
        cases hrank
  · rw [hleft]
    obtain ⟨member, hget, hin, -⟩ := allianceOf_eq_some.mp hmember
    have hset : Inside alliance c (next.setUser user fun member =>
        { member with alliance := none, rank := none }) :=
      hinside.setUser (loose_of_member hget hin) fun _ _ => Or.inl ⟨rfl, rfl⟩
    exact hset.save _

/-- The founder's rank goes to a new member. -/
theorem firstFounder (hinside : Inside alliance c next) (hget : next.users.get user = some member)
    (hin : member.alliance = some alliance) :
    Inside alliance c (after ((Alliance.setFounder alliance user none).run next)) := by
  rw [Alliance.setFounder_first]
  cases hfounder : next.founderRank alliance with
  | none => exact hinside
  | some id =>
      obtain ⟨rank, hrow, htest⟩ := Table.first_eq_some hfounder
      exact hinside.giveRank hget hin hrow (of_decide_eq_true htest).1

/-- Two members exchange their ranks. -/
theorem setFounder (hinside : Inside alliance c next) {old : UserId} {former : Member}
    (hget : next.users.get user = some member) (hin : member.alliance = some alliance)
    (hold : next.users.get old = some former) (hformer : former.alliance = some alliance) :
    Inside alliance c (after ((Alliance.setFounder alliance user (some old)).run next)) := by
  cases hrank : next.rankOf user with
  | none =>
      rw [Alliance.setFounder_of_none hrank]
      exact hinside
  | some found =>
      obtain ⟨given, row⟩ := found
      obtain ⟨member', hget', hgiven, hrow⟩ := rankOf_eq_some.mp hrank
      obtain rfl : member = member' := Option.some.inj (hget.symm.trans hget')
      obtain ⟨row', hrow', hrowin⟩ := (hinside.rooted.users user member hget).2 given hgiven
      obtain rfl : row = row' := Option.some.inj (hrow.symm.trans hrow')
      have hfirst := hinside.giveRank hold hformer hrow (Option.some.inj (hrowin.symm.trans hin))
      rw [Alliance.setFounder_of_rank hrank]
      cases hfounder : next.founderRank alliance with
      | none => exact hfirst
      | some id =>
          obtain ⟨rank, hrank, htest⟩ := Table.first_eq_some hfounder
          -- the new founder is still a member after the old one got another rank
          by_cases heq : user = old
          · subst heq
            exact hfirst.giveRank (Table.get_modify_self _ hold) hformer hrank (of_decide_eq_true htest).1
          · refine hfirst.giveRank ?_ hin hrank (of_decide_eq_true htest).1
            rw [← hget]
            exact Table.get_modify_of_ne _ _ heq

theorem changeDefaultRank (hinside : Inside alliance c next) (id : RankId) :
    Inside alliance c (after ((Alliance.changeDefaultRank alliance (next.rankById alliance id)).run next)) := by
  rcases Alliance.changeDefaultRank_outcome next alliance (next.rankById alliance id) with hsame |
    ⟨old, new, row, hold, hnew, hrow, hne, -, hpassed⟩
  · rw [hsame]
    exact hinside
  · obtain ⟨rfl, row', hrow', hin⟩ := rankById_eq_some.mp hnew
    obtain rfl : row = row' := Option.some.inj (hrow.symm.trans hrow')
    obtain ⟨first, hfirst, htest⟩ := Table.first_eq_some hold
    have hchanged : Inside alliance c { next with
        ranks := next.ranks.modify old fun rank => { rank with standard := false } } :=
      hinside.modifyRank hfirst (of_decide_eq_true htest).1 rfl
    have hsame : (next.ranks.modify old fun rank => { rank with standard := false }).get id = some row :=
      (Table.get_modify_of_ne _ _ hne).trans hrow
    rw [hpassed]
    exact hchanged.modifyRank hsame hin rfl

theorem changeUserRank (hinside : Inside alliance c next) (uid : UserId) (rank : RankId) :
    Inside alliance c (after ((Alliance.changeUserRank (next.memberById alliance uid)
      (next.rankById alliance rank)).run next)) := by
  rcases Alliance.changeUserRank_outcome next (next.memberById alliance uid) (next.rankById alliance rank) with
    hsame | ⟨user, id, row, huser, hid, hrow, -, -, hgiven⟩
  · rw [hsame]
    exact hinside
  · obtain ⟨rfl, member, hget, hin⟩ := memberById_eq_some.mp huser
    obtain ⟨rfl, row', hrow', hrowin⟩ := rankById_eq_some.mp hid
    rw [hgiven]
    exact hinside.giveRank hget hin hrow' hrowin

/-- A rank is destroyed after its holders got the default one. -/
theorem destroyHeldRank (hinside : Inside alliance c next) {id : RankId} {rank : Rank}
    (hget : next.ranks.get id = some rank) (hin : rank.alliance = alliance) (hplain : rank.standard = false) :
    Inside alliance c (after ((do
      (next.users.select fun member => member.rank = some id).forM fun user =>
        match next.standardRank alliance with
        | none => throw .noMethodError
        | some standard => modify fun c => c.giveRank standard user
      modify fun c => { c with ranks := c.ranks.destroy id } : CommunityAct Unit).run next)) := by
  -- who still holds the rank is in the rest of the list
  let I (rest : List UserId) (s : Community) : Prop := Inside alliance c s ∧ s.ranks = next.ranks ∧
    (∀ user member, s.users.get user = some member → member.rank = some id → user ∈ rest) ∧
      ∀ user ∈ rest, ∀ member, s.users.get user = some member → member.alliance = some alliance
  refine after_forM_bind (I := I) ?_ ?_ ?_ ⟨hinside, rfl, ?_, ?_⟩
  · rintro user rest s middle ⟨hs, hranks, hholders, hmembers⟩ hrun
    cases hstandard : next.standardRank alliance with
    | none =>
        rw [hstandard] at hrun
        cases hrun
    | some standard =>
        rw [hstandard] at hrun
        obtain ⟨row, hrow, htest⟩ := Table.first_eq_some hstandard
        obtain ⟨hrowin, hrowstandard⟩ := of_decide_eq_true htest
        have hne : standard ≠ id := by
          rintro rfl
          obtain rfl : rank = row := Option.some.inj (hget.symm.trans hrow)
          rw [hplain] at hrowstandard
          cases hrowstandard
        cases hrun
        change I rest (s.giveRank standard user)
        cases huser : s.users.get user with
        | none =>
            have hsame : s.giveRank standard user = s := by
              rw [Community.giveRank, Community.setUser, Table.modify_of_none _ huser]
            rw [hsame]
            refine ⟨hs, hranks, fun other member hmember hid => ?_, fun other hother =>
              hmembers other (List.mem_cons_of_mem user hother)⟩
            refine (List.mem_cons.mp (hholders other member hmember hid)).resolve_left ?_
            rintro rfl
            rw [huser] at hmember
            cases hmember
        | some member =>
            have hmember := hmembers user List.mem_cons_self member huser
            refine ⟨hs.giveRank huser hmember (hranks ▸ hrow) hrowin, hranks, ?_, ?_⟩
            · intro other found hfound hid
              change (s.users.modify user _).get other = some found at hfound
              rw [Table.get_modify] at hfound
              split at hfound
              · obtain ⟨_, _, rfl⟩ := Option.map_eq_some_iff.mp hfound
                exact absurd (Option.some.inj hid) hne
              · rename_i hother
                exact (List.mem_cons.mp (hholders other found hfound hid)).resolve_left hother
            · intro other hother found hfound
              change (s.users.modify user _).get other = some found at hfound
              rw [Table.get_modify] at hfound
              have hbefore := hmembers other (List.mem_cons_of_mem user hother)
              split at hfound
              · obtain ⟨old, hold, rfl⟩ := Option.map_eq_some_iff.mp hfound
                exact hbefore old hold
              · exact hbefore found hfound
  · rintro user rest s err middle ⟨hs, -⟩ hrun
    cases hstandard : next.standardRank alliance with
    | none =>
        rw [hstandard] at hrun
        cases hrun
        exact hs
    | some standard =>
        rw [hstandard] at hrun
        cases hrun
  · rintro s ⟨hs, hranks, hholders, -⟩
    refine hs.destroyRank (hranks ▸ hget) hin fun user member hmember hid => ?_
    exact List.not_mem_nil (hholders user member hmember hid)
  · intro user member hmember hid
    exact Table.mem_select.mpr ⟨member, hmember, decide_eq_true hid⟩
  · intro user huser member hmember
    obtain ⟨member', hmember', hid⟩ := Table.mem_select.mp huser
    obtain rfl : member = member' := Option.some.inj (hmember.symm.trans hmember')
    obtain ⟨row, hrow, hrowin⟩ := (hinside.rooted.users user member hmember).2 id (of_decide_eq_true hid)
    obtain rfl : rank = row := Option.some.inj (hget.symm.trans hrow)
    rw [hrowin, hin]

theorem deleteUser (hinside : Inside alliance c next) (hloose : next.Loose alliance user) :
    Inside alliance c (after ((Alliance.deleteUser user).run next)) := by
  cases hrank : next.rankOf user with
  | some found =>
      rw [Alliance.deleteUser_of_rank hrank]
      exact hinside.setUser hloose fun _ _ => Or.inl ⟨rfl, rfl⟩
  | none =>
      rw [Alliance.deleteUser_of_none hrank]
      refine hinside.setUser hloose fun member hget => Or.inl ⟨rfl, ?_⟩
      cases hid : member.rank with
      | none => rfl
      | some id =>
          obtain ⟨rank, hrow, -⟩ := (hinside.rooted.users user member hget).2 id hid
          rw [rankOf_eq_some.mpr ⟨member, hget, hid, hrow⟩] at hrank
          cases hrank

/-- The alliance goes with its ranks when it has no members left. -/
theorem destroy (hinside : Inside alliance c next)
    (hempty : next.users.All fun member => member.alliance ≠ some alliance) (requests : Table Request) :
    Within alliance c { next with
      requests
      ranks := (next.ranks.select (ofAlliance alliance)).foldl Table.destroy next.ranks
      alliances := next.alliances.destroy alliance } := by
  set gone := next.ranks.select (ofAlliance alliance) with hgone
  have hin : ∀ {id rank}, next.ranks.get id = some rank → (id ∈ gone ↔ rank.alliance = alliance) := by
    intro id rank hget
    rw [hgone, Table.mem_select]
    constructor
    · rintro ⟨row, hrow, htest⟩
      obtain rfl : rank = row := Option.some.inj (hget.symm.trans hrow)
      exact of_decide_eq_true htest
    · exact fun hrank => ⟨rank, hget, decide_eq_true hrank⟩
  refine ⟨⟨fun id rank hget => ?_, fun user member hmember => ?_⟩, hinside.apart.trans ?_⟩
  · change (gone.foldl Table.destroy next.ranks).get id = some rank at hget
    rw [Table.get_foldl_destroy] at hget
    split at hget
    · cases hget
    · rename_i hnot
      change ((next.alliances.destroy alliance).get rank.alliance).isSome = true
      rw [Table.get_destroy_of_ne _ fun heq => hnot ((hin hget).mpr heq)]
      exact hinside.rooted.ranks id rank hget
  · obtain ⟨hlt, hrank⟩ := hinside.rooted.users user member hmember
    refine ⟨hlt, fun id hid => ?_⟩
    obtain ⟨rank, hrow, hrankin⟩ := hrank id hid
    refine ⟨rank, ?_, hrankin⟩
    change (gone.foldl Table.destroy next.ranks).get id = some rank
    rw [Table.get_foldl_destroy, if_neg, hrow]
    intro hmem
    exact hempty user member hmember (hrankin.trans (congrArg some ((hin hrow).mp hmem)))
  · refine ((Apart.setRequests requests).trans (Apart.setRanks fun other hne id => ?_)).trans
      (Apart.setAlliances rfl fun other hne => Table.get_destroy_of_ne _ hne)
    change (gone.foldl Table.destroy next.ranks).pick (ofAlliance other) id = next.ranks.pick _ id
    rw [Table.pick, Table.pick, Table.get_foldl_destroy]
    split
    · rename_i hmem
      obtain ⟨rank, hget, htest⟩ := Table.mem_select.mp hmem
      rw [hget, Option.filter_none]
      have hother : ofAlliance other rank = false :=
        decide_eq_false fun heq => hne (heq.symm.trans (of_decide_eq_true htest))
      exact (Option.filter_eq_none_iff.mpr fun found hfound => by
        rw [← Option.some.inj hfound, hother]
        exact Bool.false_ne_true).symm
    · rfl

/-- All members leave; then the alliance is destroyed. -/
theorem destroyAlliance (hinside : Inside alliance c next) (currentUser : UserId) :
    Within alliance c (after ((do
      (next.users.select (inAlliance alliance)).forM Alliance.deleteUser
      modify fun c : Community => { c with
        ranks := (c.ranks.select fun rank => rank.alliance = alliance).foldl Table.destroy c.ranks }
      AlliancesController.destroyPendingInvites currentUser
      modify fun c : Community => { c with
        alliances := c.alliances.destroy alliance } : CommunityAct Unit).run next)) := by
  -- who is still a member is in the rest of the list
  let I (rest : List UserId) (s : Community) : Prop := Inside alliance c s ∧
    (∀ user member, s.users.get user = some member → member.alliance = some alliance → user ∈ rest) ∧
      ∀ user ∈ rest, s.Loose alliance user
  have hafter : ∀ user rest s, I (user :: rest) s →
      Inside alliance c (after ((Alliance.deleteUser user).run s)) :=
    fun user rest s hs => hs.1.deleteUser (hs.2.2 user List.mem_cons_self)
  refine after_forM_bind (I := I) ?_ ?_ ?_ ⟨hinside, ?_, ?_⟩
  · intro user rest s middle hs hrun
    have hinside := hafter user rest s hs
    rw [hrun] at hinside
    have hmiddle : middle = s.setUser user fun member => { member with alliance := none, rank := none } := by
      cases hrank : s.rankOf user with
      | none =>
          rw [Alliance.deleteUser_of_none hrank] at hrun
          cases hrun
      | some found =>
          rw [Alliance.deleteUser_of_rank hrank] at hrun
          cases hrun
          rfl
    have hget : ∀ {other found}, middle.users.get other = some found →
        other ≠ user ∧ s.users.get other = some found ∨ found.alliance = none := by
      intro other found hfound
      rw [hmiddle, Community.setUser, Table.get_modify] at hfound
      split at hfound
      · obtain ⟨_, _, rfl⟩ := Option.map_eq_some_iff.mp hfound
        exact Or.inr rfl
      · rename_i hother
        exact Or.inl ⟨hother, hfound⟩
    refine ⟨hinside, fun other found hfound hin => ?_, fun other hother found further hfound hne hgone => ?_⟩
    · rcases hget hfound with ⟨hother, hsame⟩ | hnone
      · exact (List.mem_cons.mp (hs.2.1 other found hsame hin)).resolve_left hother
      · rw [hnone] at hin
        cases hin
    · rcases hget hfound with ⟨-, hsame⟩ | hnone
      · rw [hmiddle] at hgone
        exact hs.2.2 other (List.mem_cons_of_mem user hother) found further hsame hne hgone
      · rw [hnone]
        exact (Option.some_ne_none _).symm
  · intro user rest s err middle hs hrun
    have hinside := hafter user rest s hs
    rw [hrun] at hinside
    exact hinside.toWithin
  · rintro s ⟨hs, hmembers, -⟩
    exact hs.destroy (fun user member hmember hin => List.not_mem_nil (hmembers user member hmember hin)) _
  · intro user member hmember hin
    exact Table.mem_select.mpr ⟨member, hmember, decide_eq_true hin⟩
  · intro user huser
    obtain ⟨member, hget, hin⟩ := Table.mem_select.mp huser
    exact loose_of_member hget (of_decide_eq_true hin)

end Inside

/-- A new alliance with its default ranks. -/
theorem Rooted.created {c : Community} (hrooted : c.Rooted) (name : String) (description : Option String) :
    Inside c.alliances.nextId c { c with
      alliances := c.alliances.create { name, description }
      ranks := createDefaultRanks c.ranks c.alliances.nextId } := by
  have hself : ((c.alliances.create { name, description }).get c.alliances.nextId).isSome = true := by
    rw [Table.get_create_self]
    rfl
  have hother : ∀ other, other ≠ c.alliances.nextId →
      (c.alliances.create { name, description }).get other = c.alliances.get other :=
    fun other hne => by rw [Table.get_create, if_neg hne]
  refine ⟨⟨⟨fun id rank hget => ?_, fun user member hmember => ?_⟩, fun other hne hgone => ⟨?_, ?_⟩⟩, hself⟩
  · change ((c.alliances.create { name, description }).get rank.alliance).isSome = true
    rcases get_createDefaultRanks hget with hold | rfl | rfl
    · obtain ⟨row, hrow⟩ := Option.isSome_iff_exists.mp (hrooted.ranks id rank hold)
      rw [Table.get_create_of_some _ hrow]
      rfl
    · exact hself
    · exact hself
  · obtain ⟨hlt, hrank⟩ := hrooted.users user member hmember
    refine ⟨fun alliance hin => Nat.lt_succ_of_lt (hlt alliance hin), fun id hid => ?_⟩
    obtain ⟨rank, hrow, hin⟩ := hrank id hid
    exact ⟨rank, createDefaultRanks_of_some _ hrow, hin⟩
  · rintro ⟨hlt, hnone⟩
    exact hgone ⟨Nat.lt_of_le_of_ne (Nat.le_of_lt_succ hlt) hne, (hother other hne).symm.trans hnone⟩
  · exact ⟨congrArg _ (hother other hne), fun _ => rfl, pick_createDefaultRanks hne⟩

end Community

end Mmog

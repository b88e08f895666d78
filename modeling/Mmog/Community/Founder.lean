import Mmog.Community.Outcome

/-!
# The founder of an alliance

An alliance has one founder's rank, which exactly one of its members holds, as
long as nobody gives the founder another rank or kicks the founder.
-/

namespace Mmog

open Ruby Action Community

/-! ## Who holds a rank -/

/-- The user is a member of the alliance and holds the rank. -/
def Holds (users : Table Member) (alliance : AllianceId) (rank : RankId) (user : UserId) : Prop :=
  ∃ member, users.get user = some member ∧ member.alliance = some alliance ∧ member.rank = some rank

section Holds

variable {users : Table Member} {alliance : AllianceId} {rank : RankId} {user other : UserId}

theorem holds_modify_of_ne {change : Member → Member} (hne : other ≠ user) :
    Holds (users.modify user change) alliance rank other ↔ Holds users alliance rank other := by
  rw [Holds, Holds, Table.get_modify_of_ne _ _ hne]

theorem holds_modify_self {change : Member → Member} {member : Member}
    (hget : users.get user = some member) :
    Holds (users.modify user change) alliance rank user ↔
      (change member).alliance = some alliance ∧ (change member).rank = some rank := by
  rw [Holds, Table.get_modify_self change hget]
  constructor
  · rintro ⟨found, ⟨⟩, hholds⟩
    exact hholds
  · exact fun hholds => ⟨_, rfl, hholds⟩

/-- A change of one user who held the rank neither before nor after changes no holder. -/
theorem holds_modify {change : Member → Member}
    (hbefore : ¬ Holds users alliance rank user)
    (hafter : ∀ member, users.get user = some member →
      ¬ ((change member).alliance = some alliance ∧ (change member).rank = some rank)) :
    Holds (users.modify user change) alliance rank other ↔ Holds users alliance rank other := by
  by_cases heq : other = user
  · subst heq
    cases hget : users.get other with
    | none => rw [Table.modify_of_none _ hget]
    | some member =>
        rw [holds_modify_self hget]
        exact iff_of_false (hafter member hget) hbefore
  · exact holds_modify_of_ne heq

end Holds

/-- Exactly one user is a member of the alliance and holds the rank. -/
def HeldByOne (users : Table Member) (alliance : AllianceId) (rank : RankId) : Prop :=
  ∃ user, Holds users alliance rank user ∧ ∀ other, Holds users alliance rank other → other = user

namespace HeldByOne

variable {users : Table Member} {alliance : AllianceId} {rank : RankId} {user : UserId}

theorem congr {users' : Table Member} (hheld : HeldByOne users alliance rank)
    (hiff : ∀ other, Holds users' alliance rank other ↔ Holds users alliance rank other) :
    HeldByOne users' alliance rank := by
  obtain ⟨user, hholds, hone⟩ := hheld
  exact ⟨user, (hiff user).mpr hholds, fun other hother => hone other ((hiff other).mp hother)⟩

end HeldByOne

/-! ## The invariant -/

namespace Community

/-- Every alliance has the two default ranks and no others, and its members hold them. -/
structure Seated (c : Community) : Prop where
  rooted : c.ranks.All fun rank => (c.alliances.get rank.alliance).isSome = true ∧
    (rank = novice rank.alliance ∨ rank = founder rank.alliance)
  built : ∀ alliance, (c.alliances.get alliance).isSome = true →
    (∃ id, c.ranks.get id = some (novice alliance)) ∧ ∃ id, c.ranks.get id = some (founder alliance)
  one : ∀ alliance first second, c.ranks.get first = some (founder alliance) →
    c.ranks.get second = some (founder alliance) → first = second
  housed : c.users.All fun member => ∀ alliance, member.alliance = some alliance →
    (c.alliances.get alliance).isSome = true ∧
      ∃ id rank, member.rank = some id ∧ c.ranks.get id = some rank ∧ rank.alliance = alliance

/-- One member of every alliance holds the founder's rank. -/
structure Led (c : Community) : Prop extends Seated c where
  led : ∀ alliance id, c.ranks.get id = some (founder alliance) → HeldByOne c.users alliance id

variable {c : Community} {alliance : AllianceId} {user : UserId} {member : Member}

namespace Seated

/-- A save of an alliance makes no new ranks. -/
theorem createDefaultRanks_eq (hseated : c.Seated) (hlive : (c.alliances.get alliance).isSome = true) :
    createDefaultRanks c.ranks alliance = c.ranks := by
  obtain ⟨⟨id, hnovice⟩, id', hfounder⟩ := hseated.built alliance hlive
  rw [createDefaultRanks, createRank_of_named (named_of_get hnovice),
    createRank_of_named (named_of_get hfounder)]

theorem founderRank_eq_some (hseated : c.Seated) {id : RankId}
    (hfirst : c.founderRank alliance = some id) : c.ranks.get id = some (founder alliance) := by
  obtain ⟨rank, hget, htest⟩ := Table.first_eq_some hfirst
  obtain ⟨halliance, hfounder⟩ := of_decide_eq_true htest
  rcases (hseated.rooted id rank hget).2 with hnovice | hfounder'
  · rw [hnovice] at hfounder
    cases hfounder
  · rw [hget, hfounder', halliance]

theorem exists_founderRank (hseated : c.Seated) (hlive : (c.alliances.get alliance).isSome = true) :
    ∃ id, c.founderRank alliance = some id := by
  obtain ⟨-, id, hget⟩ := hseated.built alliance hlive
  cases hfirst : c.founderRank alliance with
  | none =>
      have hfalse := Table.first_eq_none.mp hfirst id _ hget
      simp [founder] at hfalse
  | some first => exact ⟨first, rfl⟩

theorem standardRank_eq_some (hseated : c.Seated) {id : RankId}
    (hfirst : c.standardRank alliance = some id) : c.ranks.get id = some (novice alliance) := by
  obtain ⟨rank, hget, htest⟩ := Table.first_eq_some hfirst
  obtain ⟨halliance, hstandard⟩ := of_decide_eq_true htest
  rcases (hseated.rooted id rank hget).2 with hnovice | hfounder
  · rw [hget, hnovice, halliance]
  · rw [hfounder] at hstandard
    cases hstandard

theorem exists_standardRank (hseated : c.Seated) (hlive : (c.alliances.get alliance).isSome = true) :
    ∃ id, c.standardRank alliance = some id := by
  obtain ⟨⟨id, hget⟩, -⟩ := hseated.built alliance hlive
  cases hfirst : c.standardRank alliance with
  | none =>
      have hfalse := Table.first_eq_none.mp hfirst id _ hget
      simp [novice] at hfalse
  | some first => exact ⟨first, rfl⟩

/-- Who has the founder's right holds the founder's rank. -/
theorem holds_of_permission (hseated : c.Seated)
    (hpermission : c.permission? alliance user .destroy = true) :
    ∃ id, c.ranks.get id = some (founder alliance) ∧ Holds c.users alliance id user := by
  obtain ⟨id, rank, hrank, halliance, hallows⟩ := permission?_eq_true.mp hpermission
  obtain ⟨member, hget, hid, hrow⟩ := rankOf_eq_some.mp hrank
  obtain ⟨member', hget', hin, -⟩ := allianceOf_eq_some.mp halliance
  obtain rfl : member = member' := Option.some.inj (hget.symm.trans hget')
  obtain ⟨-, id', rank', hid', hrow', hrank'⟩ := hseated.housed user member hget alliance hin
  obtain rfl : id = id' := Option.some.inj (hid.symm.trans hid')
  obtain rfl : rank = rank' := Option.some.inj (hrow.symm.trans hrow')
  rcases (hseated.rooted id rank hrow).2 with hnovice | hfounder
  · rw [hnovice] at hallows
    cases hallows
  · exact ⟨id, by rw [hrow, hfounder, hrank'], member, hget, hin, hid⟩

theorem alliance_eq_none (hseated : c.Seated) (hnone : c.allianceOf user = none)
    (hget : c.users.get user = some member) : member.alliance = none := by
  cases hin : member.alliance with
  | none => rfl
  | some alliance =>
      have hsome := allianceOf_eq_some.mpr
        ⟨member, hget, hin, (hseated.housed user member hget alliance hin).1⟩
      rw [hnone] at hsome
      cases hsome

/-- Users change, and an alliance is saved. -/
theorem of_users {users : Table Member} {alliances : Table Alliance} (hseated : c.Seated)
    (hlive : ∀ alliance, (alliances.get alliance).isSome = (c.alliances.get alliance).isSome)
    (hself : (c.alliances.get alliance).isSome = true)
    (hhoused : users.All fun member => ∀ alliance, member.alliance = some alliance →
      (c.alliances.get alliance).isSome = true ∧
        ∃ id rank, member.rank = some id ∧ c.ranks.get id = some rank ∧ rank.alliance = alliance) :
    Seated { c with users, alliances, ranks := createDefaultRanks c.ranks alliance } := by
  rw [hseated.createDefaultRanks_eq hself]
  refine ⟨fun id rank hrank => ?_, fun alliance hsome => hseated.built alliance ?_, hseated.one,
    fun user member hmember alliance hin => ?_⟩
  · change (alliances.get rank.alliance).isSome = true ∧ _
    rw [hlive]
    exact hseated.rooted id rank hrank
  · rw [← hlive]
    exact hsome
  · change (alliances.get alliance).isSome = true ∧ _
    rw [hlive]
    exact hhoused user member hmember alliance hin

theorem joined (hseated : c.Seated) (hlive : (c.alliances.get alliance).isSome = true)
    {standard : RankId} (hstandard : c.ranks.get standard = some (novice alliance)) (user : UserId) :
    (c.joined alliance standard user).Seated := by
  refine hseated.of_users (isSome_modify _ _ _) hlive ?_
  refine hseated.housed.modify fun member hmember other hin => ?_
  cases hin
  exact ⟨hlive, standard, novice alliance, rfl, hstandard, rfl⟩

theorem left (hseated : c.Seated) (hlive : (c.alliances.get alliance).isSome = true) (user : UserId) :
    (c.left alliance user).Seated := by
  refine hseated.of_users (isSome_modify _ _ _) hlive ?_
  exact hseated.housed.modify fun _ _ _ hnone => absurd hnone.symm (Option.some_ne_none _)

/-- A member gets another rank of the alliance. -/
theorem giveRank (hseated : c.Seated) (hget : c.users.get user = some member)
    (hin : member.alliance = some alliance) {id : RankId} {rank : Rank}
    (hrank : c.ranks.get id = some rank) (hrankin : rank.alliance = alliance) :
    (c.giveRank id user).Seated := by
  refine ⟨hseated.rooted, hseated.built, hseated.one, ?_⟩
  refine hseated.housed.modify fun member' hmember' other hin' => ?_
  obtain rfl : member = member' := Option.some.inj (hget.symm.trans hmember')
  obtain rfl : alliance = other := Option.some.inj (hin.symm.trans hin')
  exact ⟨(hseated.housed user member hget alliance hin).1, id, rank, rfl, hrank, hrankin⟩

/-- A new alliance has its two default ranks and no members. -/
theorem created (hseated : c.Seated) (name : String) (description : Option String) :
    Seated { c with
      alliances := c.alliances.create { name, description }
      ranks := createDefaultRanks c.ranks c.alliances.nextId } := by
  have hfresh : c.alliances.get c.alliances.nextId = none := c.alliances.fresh _ (le_refl _)
  have hlive : ∀ alliance, (c.alliances.get alliance).isSome = true →
      ((c.alliances.create { name, description }).get alliance).isSome = true := by
    intro alliance hsome
    obtain ⟨row, hrow⟩ := Option.isSome_iff_exists.mp hsome
    rw [Table.get_create_of_some _ hrow]
    rfl
  have hself : ((c.alliances.create { name, description }).get c.alliances.nextId).isSome = true := by
    rw [Table.get_create_self]
    rfl
  have hunranked : c.ranks.All fun rank => rank.alliance ≠ c.alliances.nextId := by
    intro id rank hget hrank
    have hsome := (hseated.rooted id rank hget).1
    rw [hrank, hfresh] at hsome
    cases hsome
  have hold : ∀ {id rank}, c.ranks.get id = some rank →
      ((c.ranks.create (novice c.alliances.nextId)).create (founder c.alliances.nextId)).get id = some rank :=
    fun hget => Table.get_create_of_some _ (Table.get_create_of_some _ hget)
  rw [createDefaultRanks_of_unranked hunranked]
  refine ⟨Table.All.create (Table.All.create (fun id rank hrank => ?_) ⟨hself, .inl rfl⟩)
    ⟨hself, .inr rfl⟩, fun alliance hsome => ?_, fun alliance first second hfirst hsecond => ?_,
    fun user member hmember alliance hin => ?_⟩
  · obtain ⟨hsome, hbuilt⟩ := hseated.rooted id rank hrank
    exact ⟨hlive _ hsome, hbuilt⟩
  · by_cases heq : alliance = c.alliances.nextId
    · subst heq
      exact ⟨⟨_, Table.get_create_of_some _ (Table.get_create_self _ _)⟩, _, Table.get_create_self _ _⟩
    · obtain ⟨⟨novice, hnovice⟩, founder, hfounder⟩ := hseated.built alliance (by
        rw [Table.get_create, if_neg heq] at hsome
        exact hsome)
      exact ⟨⟨novice, hold hnovice⟩, founder, hold hfounder⟩
  · have hcases : ∀ {id}, ((c.ranks.create (novice c.alliances.nextId)).create
        (founder c.alliances.nextId)).get id = some (founder alliance) →
        (id = c.ranks.nextId + 1 ∧ alliance = c.alliances.nextId) ∨
          c.ranks.get id = some (founder alliance) := by
      intro id hget
      rw [Table.get_create, Table.get_create] at hget
      split at hget
      · rename_i heq
        exact Or.inl ⟨heq, (congrArg Rank.alliance (Option.some.inj hget)).symm⟩
      · split at hget
        · cases congrArg Rank.isFounder (Option.some.inj hget)
        · exact Or.inr hget
    rcases hcases hfirst with ⟨rfl, rfl⟩ | hfirst'
    · rcases hcases hsecond with ⟨rfl, -⟩ | hsecond'
      · rfl
      · exact absurd rfl (hunranked second _ hsecond')
    · rcases hcases hsecond with ⟨rfl, rfl⟩ | hsecond'
      · exact absurd rfl (hunranked first _ hfirst')
      · exact hseated.one alliance first second hfirst' hsecond'
  · obtain ⟨hsome, id, rank, hid, hrank, hrankin⟩ := hseated.housed user member hmember alliance hin
    exact ⟨hlive alliance hsome, id, rank, hid, hold hrank, hrankin⟩

end Seated

namespace Led

/-- Who joins gets the default rank. -/
theorem joined (hled : c.Led) (hlive : (c.alliances.get alliance).isSome = true)
    (hnone : c.allianceOf user = none) {standard : RankId}
    (hstandard : c.ranks.get standard = some (novice alliance)) :
    (c.joined alliance standard user).Led := by
  refine ⟨hled.toSeated.joined hlive hstandard user, fun other id hfounder => ?_⟩
  have hranks : (c.joined alliance standard user).ranks = c.ranks :=
    hled.toSeated.createDefaultRanks_eq hlive
  rw [hranks] at hfounder
  refine (hled.led other id hfounder).congr fun holder => holds_modify ?_ ?_
  · rintro ⟨member, hget, hin, -⟩
    rw [hled.toSeated.alliance_eq_none hnone hget] at hin
    cases hin
  · rintro member hget ⟨hin, hid⟩
    cases hid
    cases hstandard.symm.trans hfounder

/-- Who leaves does not hold the founder's rank. -/
theorem left (hled : c.Led) (hmember : c.allianceOf user = some alliance)
    (hspared : ∀ id, c.ranks.get id = some (founder alliance) → ¬ Holds c.users alliance id user) :
    (c.left alliance user).Led := by
  obtain ⟨member, hget, hin, hlive⟩ := allianceOf_eq_some.mp hmember
  refine ⟨hled.toSeated.left hlive user, fun other id hfounder => ?_⟩
  have hranks : (c.left alliance user).ranks = c.ranks := hled.toSeated.createDefaultRanks_eq hlive
  rw [hranks] at hfounder
  refine (hled.led other id hfounder).congr fun holder => holds_modify ?_ ?_
  · rintro ⟨member', hget', hin', hid⟩
    obtain rfl : member = member' := Option.some.inj (hget.symm.trans hget')
    obtain rfl : alliance = other := Option.some.inj (hin.symm.trans hin')
    exact hspared id hfounder ⟨member, hget, hin, hid⟩
  · rintro member' - ⟨hin', -⟩
    cases hin'

/-- A member who is not the founder gets the rank of a novice. -/
theorem giveRank (hled : c.Led) (hget : c.users.get user = some member)
    (hin : member.alliance = some alliance) {id : RankId}
    (hnovice : c.ranks.get id = some (novice alliance))
    (hspared : ∀ id, c.ranks.get id = some (founder alliance) → ¬ Holds c.users alliance id user) :
    (c.giveRank id user).Led := by
  refine ⟨hled.toSeated.giveRank hget hin hnovice rfl, fun other rank hfounder => ?_⟩
  refine (hled.led other rank hfounder).congr fun holder => holds_modify ?_ ?_
  · rintro ⟨member', hget', hin', hrank⟩
    obtain rfl : member = member' := Option.some.inj (hget.symm.trans hget')
    obtain rfl : alliance = other := Option.some.inj (hin.symm.trans hin')
    exact hspared rank hfounder ⟨member, hget, hin, hrank⟩
  · rintro member' - ⟨-, hid⟩
    cases hid
    cases hnovice.symm.trans hfounder

/-- Ranks that change hands in one alliance are held as before in another. -/
theorem holds_giveRank_of_ne (c : Community) {user holder : UserId} {member : Member}
    {alliance other : AllianceId} {given rank : RankId} (hget : c.users.get user = some member)
    (hin : member.alliance = some alliance) (hne : other ≠ alliance) :
    Holds (c.giveRank given user).users other rank holder ↔ Holds c.users other rank holder := by
  refine holds_modify ?_ ?_
  · rintro ⟨found, hfound, hfoundin, -⟩
    obtain rfl : member = found := Option.some.inj (hget.symm.trans hfound)
    exact hne (Option.some.inj (hfoundin.symm.trans hin))
  · rintro found hfound ⟨hfoundin, -⟩
    obtain rfl : member = found := Option.some.inj (hget.symm.trans hfound)
    exact hne (Option.some.inj (hfoundin.symm.trans hin))

/-- The founder and another member exchange their ranks. -/
theorem swap (hled : c.Led) {old new : UserId} {given id : RankId}
    (hfounder : c.ranks.get id = some (founder alliance)) (hold : Holds c.users alliance id old)
    (hget : c.users.get new = some member) (hin : member.alliance = some alliance)
    (hgiven : member.rank = some given) (hne : new ≠ old) :
    ((c.giveRank given old).giveRank id new).Led := by
  obtain ⟨found, hfound, hfoundin, hfoundid⟩ := hold
  have hsecond : (c.giveRank given old).users.get new = some member := by
    rw [Community.giveRank, setUser, Table.get_modify_of_ne _ _ hne, hget]
  obtain ⟨-, given', row, hgiven', hrow, hrowin⟩ := hled.housed new member hget alliance hin
  obtain rfl : given = given' := Option.some.inj (hgiven.symm.trans hgiven')
  obtain ⟨user, -, hone⟩ := hled.led alliance id hfounder
  have hfirst := hone old ⟨found, hfound, hfoundin, hfoundid⟩
  -- the rank that the old founder gets is another one, since only one member held it
  have hgivenne : given ≠ id := by
    rintro rfl
    exact hne ((hone new ⟨member, hget, hin, hgiven⟩).trans hfirst.symm)
  have hseated : ((c.giveRank given old).giveRank id new).Seated :=
    (hled.toSeated.giveRank hfound hfoundin hrow hrowin).giveRank hsecond hin hfounder rfl
  refine ⟨hseated, fun other rank hrank => ?_⟩
  by_cases heq : other = alliance
  · subst heq
    obtain rfl : rank = id := hled.one other rank id hrank hfounder
    refine ⟨new, (holds_modify_self hsecond).mpr ⟨hin, rfl⟩, fun holder hholds => ?_⟩
    by_contra hholder
    have hholds := (holds_modify_of_ne hholder).mp hholds
    by_cases holdeq : holder = old
    · subst holdeq
      exact hgivenne (Option.some.inj ((holds_modify_self hfound).mp hholds).2)
    · exact holdeq ((hone holder ((holds_modify_of_ne holdeq).mp hholds)).trans hfirst.symm)
  · refine (hled.led other rank hrank).congr fun holder => ?_
    exact (holds_giveRank_of_ne _ hsecond hin heq).trans (holds_giveRank_of_ne c hfound hfoundin heq)

/-- The user who founds an alliance is its only member, and holds the founder's rank. -/
theorem founded (hled : c.Led) (hget : c.users.get user = some member)
    (hnone : c.allianceOf user = none) {created : Community} (hcreated : created.Seated)
    (hself : (created.alliances.get c.alliances.nextId).isSome = true) (husers : created.users = c.users)
    (hranks : ∀ id alliance, alliance ≠ c.alliances.nextId →
      created.ranks.get id = some (founder alliance) → c.ranks.get id = some (founder alliance))
    {standard id : RankId} (hstandard : created.standardRank c.alliances.nextId = some standard)
    (hid : (created.joined c.alliances.nextId standard user).founderRank c.alliances.nextId = some id) :
    ((created.joined c.alliances.nextId standard user).giveRank id user).Led := by
  have hjoined := hcreated.joined hself (hcreated.standardRank_eq_some hstandard) user
  have hfounder := hjoined.founderRank_eq_some hid
  have hmember : (created.joined c.alliances.nextId standard user).users.get user =
      some { member with alliance := some c.alliances.nextId, rank := some standard } :=
    Table.get_modify_self _ (by rw [husers]; exact hget)
  have hfresh : ∀ other found, c.users.get other = some found →
      found.alliance ≠ some c.alliances.nextId := by
    intro other found hfound hin
    have hsome := (hled.housed other found hfound _ hin).1
    rw [c.alliances.fresh _ (le_refl _)] at hsome
    cases hsome
  refine ⟨hjoined.giveRank hmember rfl hfounder rfl, fun other rank hrank => ?_⟩
  by_cases heq : other = c.alliances.nextId
  · subst heq
    obtain rfl : rank = id := hjoined.one _ rank id hrank hfounder
    refine ⟨user, (holds_modify_self hmember).mpr ⟨rfl, rfl⟩, fun holder hholds => ?_⟩
    by_contra hne
    obtain ⟨found, hfound, hin, -⟩ := (holds_modify_of_ne hne).mp ((holds_modify_of_ne hne).mp hholds)
    exact hfresh holder found (by rw [← husers]; exact hfound) hin
  · have hrank' : c.ranks.get rank = some (founder other) := by
      refine hranks rank other heq ?_
      rw [← hcreated.createDefaultRanks_eq hself]
      exact hrank
    refine (hled.led other rank hrank').congr fun holder => ?_
    refine (holds_giveRank_of_ne _ hmember rfl heq).trans ?_
    rw [← husers]
    refine holds_modify ?_ ?_
    · rintro ⟨found, hfound, hin, -⟩
      rw [husers] at hfound
      rw [hled.toSeated.alliance_eq_none hnone hfound] at hin
      cases hin
    · rintro found - ⟨hin, -⟩
      exact heq (Option.some.inj hin).symm

theorem setRequests (hled : c.Led) (requests : Table Request) : Led { c with requests } :=
  ⟨⟨hled.rooted, hled.built, hled.one, hled.housed⟩, hled.led⟩

theorem setRelationships (hled : c.Led) (relationships : Table Relationship) :
    Led { c with relationships } :=
  ⟨⟨hled.rooted, hled.built, hled.one, hled.housed⟩, hled.led⟩

end Led

/-! ## Methods -/

namespace Led

theorem create (hled : c.Led) (hget : c.users.get user = some member) (name description : Option String) :
    (after ((AlliancesController.create user name description).run c)).Led := by
  rw [AlliancesController.create, run_bind_get]
  dsimp only
  split
  · rename_i hnone
    rw [Option.isNone_iff_eq_none] at hnone
    cases name with
    | none => exact hled
    | some name =>
        dsimp only
        split
        · exact hled
        · rw [run_bind_modify]
          set created : Community := { c with
            alliances := c.alliances.create { name, description }
            ranks := createDefaultRanks c.ranks c.alliances.nextId } with hdef
          have hcreated : created.Seated := hled.toSeated.created name description
          have hself : (created.alliances.get c.alliances.nextId).isSome = true := by
            change ((c.alliances.create { name, description }).get _).isSome = true
            rw [Table.get_create_self]
            rfl
          have hstill : created.allianceOf user = none := by
            change (created.users.get user).bind _ = none
            rw [show created.users.get user = some member from hget, Option.bind_some,
              hled.toSeated.alliance_eq_none hnone.1 hget]
            rfl
          obtain ⟨standard, hstandard⟩ := hcreated.exists_standardRank hself
          have hjoined := hcreated.joined hself (hcreated.standardRank_eq_some hstandard) user
          obtain ⟨id, hid⟩ := hjoined.exists_founderRank ((isSome_modify _ _ _ _).trans hself)
          rw [run_bind_of_ok (Alliance.addUser_joins hstill hstandard), if_pos rfl,
            Alliance.setFounder_first, hid]
          refine hled.founded hget hnone.1 hcreated hself rfl (fun other alliance hne hfounder => ?_) hstandard hid
          rcases get_createDefaultRanks hfounder with hold | hnovice | hnew
          · exact hold
          · cases congrArg Rank.isFounder hnovice
          · exact absurd (congrArg Rank.alliance hnew) hne
  · exact hled

theorem addUser (hled : c.Led) (hlive : (c.alliances.get alliance).isSome = true) (user : UserId) :
    (after ((Alliance.addUser alliance user).run c)).Led := by
  rcases Alliance.addUser_outcome c alliance user with hsame | ⟨-, hstandard, -⟩ |
    ⟨standard, hnone, hstandard, hjoined⟩
  · rw [hsame]
    exact hled
  · obtain ⟨standard, hsome⟩ := hled.toSeated.exists_standardRank hlive
    rw [hsome] at hstandard
    cases hstandard
  · rw [hjoined]
    exact hled.joined hlive hnone (hled.toSeated.standardRank_eq_some hstandard)

theorem removeUser (hled : c.Led)
    (hspared : ∀ id, c.ranks.get id = some (founder alliance) → ¬ Holds c.users alliance id user) :
    (after ((Alliance.removeUser alliance user).run c)).Led := by
  rcases Alliance.removeUser_outcome c alliance user with hsame | ⟨hmember, hrank, -⟩ |
    ⟨id, rank, hmember, -, hleft⟩
  · rw [hsame]
    exact hled
  · obtain ⟨member, hget, halliance, -⟩ := allianceOf_eq_some.mp hmember
    obtain ⟨-, id, rank, hid, hrow, -⟩ := hled.housed user member hget alliance halliance
    rw [rankOf_eq_some.mpr ⟨member, hget, hid, hrow⟩] at hrank
    cases hrank
  · rw [hleft]
    exact hled.left hmember hspared

theorem makeFriendship (self other : UserId) : Safe Led (Member.makeFriendship self other) anything := by
  refine (Safe.modify fun c hled => ?_).bind fun _ _ => Safe.modify fun c hled => ?_
  · exact hled.setRelationships _
  · exact hled.setRelationships _

theorem join (alliance : AllianceId) (user : UserId) :
    Safe (fun c => c.Led ∧ (c.alliances.get alliance).isSome = true) (Alliance.addUser alliance user)
      anything := by
  rintro c ⟨hled, hlive⟩
  refine ⟨⟨hled.addUser hlive user, ?_⟩, fun _ _ => trivial⟩
  rcases Alliance.addUser_outcome c alliance user with hsame | ⟨-, -, hstuck⟩ | ⟨standard, -, -, hjoined⟩
  · rw [hsame]
    exact hlive
  · rw [hstuck]
    exact hlive
  · rw [hjoined]
    exact (isSome_modify _ _ _ _).trans hlive

/-! ## Requests -/

/-- The holder of the founder's rank has the founder's right. -/
theorem permission_of_holds (hled : c.Led) {id : RankId} (hfounder : c.ranks.get id = some (founder alliance))
    (hholds : Holds c.users alliance id user) : c.permission? alliance user .destroy = true := by
  obtain ⟨member, hget, hin, hid⟩ := hholds
  refine permission?_eq_true.mpr ⟨id, founder alliance, rankOf_eq_some.mpr ⟨member, hget, hid, hfounder⟩,
    allianceOf_eq_some.mpr ⟨member, hget, hin, ?_⟩, rfl⟩
  exact (hled.housed user member hget alliance hin).1

theorem changeFounder (currentUser : UserId) (alliance : AllianceId) (uid : UserId) :
    Safe Led (AlliancesController.changeFounder currentUser alliance uid) anything := by
  intro c hled
  refine ⟨?_, fun _ _ => trivial⟩
  refine after_setAlliance hled fun hlive => ?_
  rw [run_bind_get]
  cases hmember : c.memberById alliance uid with
  | none => exact hled
  | some new =>
      dsimp only
      split
      · rename_i hallowed
        obtain ⟨id, hfounder, hold⟩ := hled.toSeated.holds_of_permission hallowed.1
        obtain ⟨rfl, member, hget, hin⟩ := memberById_eq_some.mp hmember
        obtain ⟨-, given, rank, hgiven, hrank, -⟩ := hled.housed uid member hget alliance hin
        obtain ⟨id', hid'⟩ := hled.toSeated.exists_founderRank hlive
        obtain rfl := hled.one alliance id' id (hled.toSeated.founderRank_eq_some hid') hfounder
        rw [Alliance.setFounder_of_rank (rankOf_eq_some.mpr ⟨member, hget, hgiven, hrank⟩), hid']
        exact hled.swap hfounder hold hget hin hgiven hallowed.2
      · exact hled

theorem changeUserRank (hled : c.Led) {currentUser uid : UserId} {rank : RankId}
    (hspared : c.permission? alliance currentUser .editRanks = true →
      (c.memberById alliance uid).isSome = true →
        ((c.rankById alliance rank).bind c.ranks.get).any (!·.isFounder) = true →
          ∀ id, c.ranks.get id = some (founder alliance) → ¬ Holds c.users alliance id uid) :
    (after ((AlliancesController.changeUserRank currentUser alliance uid rank).run c)).Led := by
  refine after_setAlliance hled fun _ => ?_
  rw [run_bind_get]
  split
  · rename_i hallowed
    rw [after_bind_pure]
    rcases Alliance.changeUserRank_outcome c (c.memberById alliance uid) (c.rankById alliance rank) with
      hsame | ⟨user, id, row, huser, hid, hrow, hplain, -, hgiven⟩
    · rw [hsame]
      exact hled
    · rw [hgiven]
      have hspared := hspared hallowed (by rw [huser]; rfl)
        (by rw [hid, Option.bind_some, hrow, Option.any_some, hplain]; rfl)
      obtain ⟨rfl, member, hget, hin⟩ := memberById_eq_some.mp huser
      obtain ⟨rfl, row', hrow', halliance⟩ := rankById_eq_some.mp hid
      obtain rfl : row = row' := Option.some.inj (hrow.symm.trans hrow')
      rcases (hled.rooted rank row hrow).2 with hnovice | hfounder
      · refine hled.giveRank hget hin ?_ hspared
        rw [hrow, hnovice, halliance]
      · rw [hfounder] at hplain
        cases hplain
  · exact hled

theorem kick (hled : c.Led) {currentUser uid : UserId}
    (hspared : c.permission? alliance currentUser .kick = true →
      (c.memberById alliance uid).isSome = true → ∀ id, c.ranks.get id = some (founder alliance) →
        ¬ Holds c.users alliance id uid) :
    (after ((AlliancesController.removeUser currentUser alliance uid).run c)).Led := by
  refine after_setAlliance hled fun _ => ?_
  rw [run_bind_get]
  split
  · rename_i hallowed
    cases huser : c.memberById alliance uid with
    | none => exact hled
    | some user =>
        have hspared := hspared hallowed (by rw [huser]; rfl)
        obtain ⟨rfl, -⟩ := memberById_eq_some.mp huser
        dsimp only
        rw [after_bind_pure]
        exact hled.removeUser hspared
  · exact hled

/-- The founder cannot leave. -/
theorem leave (currentUser : UserId) (alliance : AllianceId) :
    Safe Led (AlliancesController.leave currentUser alliance) anything := by
  intro c hled
  refine ⟨?_, fun _ _ => trivial⟩
  refine after_setAlliance hled fun _ => ?_
  rw [run_bind_get]
  split
  · rename_i hallowed
    have hspared : ∀ id, c.ranks.get id = some (founder alliance) →
        ¬ Holds c.users alliance id currentUser := by
      intro id hfounder hholds
      rw [hled.permission_of_holds hfounder hholds] at hallowed
      cases hallowed
    have hremoved := hled.removeUser hspared
    rw [run_bind]
    cases hrun : (Alliance.removeUser alliance currentUser).run c with
    | error err next =>
        rw [hrun] at hremoved
        exact hremoved
    | ok removed next =>
        rw [hrun] at hremoved
        cases removed with
        | false => exact hremoved
        | true => exact hremoved.setRequests _
  · exact hled

end Led

/-! ## Runs -/

/-- The user has the rank of a founder. -/
def isFounder (c : Community) (user : UserId) : Bool :=
  (c.rankOf user).any fun found => found.2.isFounder

/-- A request that is let through takes the rank of the founder from the one who holds it. -/
def deposes (c : Community) : CommunityEvent → Bool
  | .request (some user) (.changeUserRank alliance uid rank) =>
      c.permission? alliance user .editRanks && (c.memberById alliance uid).isSome &&
        ((c.rankById alliance rank).bind c.ranks.get).any (!·.isFounder) && c.isFounder uid
  | .request (some user) (.removeUser alliance uid) =>
      c.permission? alliance user .kick && (c.memberById alliance uid).isSome && c.isFounder uid
  | _ => false

end Community

/-- Founding and leaving an alliance, its founder, its members and their ranks, and invitations. -/
def CommunityEvent.isFounding : CommunityEvent → Bool
  | .request _ (.createAlliance _ _) => true
  | .request _ (.changeFounder _ _) => true
  | .request _ (.changeUserRank _ _ _) => true
  | .request _ (.removeUser _ _) => true
  | .request _ (.leave _) => true
  | .request _ (.createRequest _ _ _) => true
  | .request _ (.reaction _ _) => true
  | _ => false

namespace Community

variable {c : Community} {alliance : AllianceId} {user : UserId}

theorem isFounder_of_holds {id : RankId} (hfounder : c.ranks.get id = some (founder alliance))
    (hholds : Holds c.users alliance id user) : c.isFounder user = true := by
  obtain ⟨member, hget, -, hid⟩ := hholds
  rw [isFounder, rankOf_eq_some.mpr ⟨member, hget, hid, hfounder⟩]
  rfl

theorem Fresh.led {c : Community} (hfresh : c.Fresh) : c.Led where
  rooted id rank hrank := by
    rw [hfresh.ranks id] at hrank
    cases hrank
  built alliance hlive := by
    rw [hfresh.alliances alliance] at hlive
    cases hlive
  one alliance first second hfirst _ := by
    rw [hfresh.ranks first] at hfirst
    cases hfirst
  housed user member hmember alliance hin := by
    rw [(hfresh.users user member hmember).1] at hin
    cases hin
  led alliance id hget := by
    rw [hfresh.ranks id] at hget
    cases hget

theorem Led.perform (hled : c.Led) {event : CommunityEvent} (hfounding : event.isFounding = true)
    (hspared : c.deposes event = false) : (after (event.perform.run c)).Led := by
  cases event with
  | signUp alliance => cases hfounding
  | call method => cases hfounding
  | request session asked =>
      cases session with
      | none => exact hled
      | some user =>
          unfold CommunityEvent.perform
          rw [run_bind_get]
          cases hget : c.users.get user with
          | none => exact hled
          | some member =>
              rw [Option.isSome_some, if_pos rfl]
              cases asked with
              | createAlliance name description => exact hled.create hget name description
              | changeFounder alliance uid => exact (Led.changeFounder user alliance uid).after hled
              | changeUserRank alliance uid rank =>
                  refine hled.changeUserRank fun hallowed hmember hplain id hfounder hholds => ?_
                  rw [deposes, hallowed, hmember, hplain, isFounder_of_holds hfounder hholds] at hspared
                  cases hspared
              | removeUser alliance uid =>
                  refine hled.kick fun hallowed hmember id hfounder hholds => ?_
                  rw [deposes, hallowed, hmember, isFounder_of_holds hfounder hholds] at hspared
                  cases hspared
              | leave alliance => exact (Led.leave user alliance).after hled
              | createRequest action recipient value =>
                  exact (createRequest_safe (fun c _ hled => hled.setRequests _) _ _ _ _).after hled
              | reaction answer token =>
                  exact (reaction_safe (fun c _ hled => hled.setRequests _) Led.makeFriendship
                    Led.join _ _ _).after hled
              | changeDefaultRank | changeDescription | destroyAlliance | createRank | updateRank
              | destroyRank | destroyRelationship => cases hfounding

/-- An alliance that is there has one founder's rank, which one member holds, and every member
holds one of its ranks. -/
def WellLed (c : Community) (alliance : AllianceId) : Prop :=
  (∃ rank, c.founderRank alliance = some rank ∧ HeldByOne c.users alliance rank) ∧
    ∀ user member, c.users.get user = some member → member.alliance = some alliance →
      ∃ id rank, member.rank = some id ∧ c.ranks.get id = some rank ∧ rank.alliance = alliance

/-- As long as nobody takes the founder's rank from the founder, every alliance has exactly one. -/
theorem one_founder {start final : Community} {events : List CommunityEvent} (hfresh : start.Fresh)
    (hfounding : ∀ event ∈ events, event.isFounding = true)
    (hspared : Along CommunityEvent.step (fun c event => c.deposes event = false) start events)
    (hrun : run CommunityEvent.step start events = some final) (alliance : AllianceId)
    (hlive : (final.alliances.get alliance).isSome = true) : final.WellLed alliance := by
  have hled : final.Led := by
    refine run_keeps Led ?_ hfresh.led ((along_of_forall hfounding).and hspared) hrun
    intro c event next hled hevent hstep
    cases hstep
    exact hled.perform hevent.1 hevent.2
  obtain ⟨rank, hrank⟩ := hled.toSeated.exists_founderRank hlive
  refine ⟨⟨rank, hrank, hled.led alliance rank (hled.toSeated.founderRank_eq_some hrank)⟩, ?_⟩
  intro user member hget hin
  exact (hled.housed user member hget alliance hin).2

/-- The first user founds an alliance and makes the second one, who joins it, its founder. -/
def handedOver : List CommunityEvent :=
  [.request (some 1) (.createAlliance (some "Orion") none),
    .request (some 1) (.createRequest .allianceInvite (some 2) 7),
    .request (some 2) (.reaction .yes 7), .request (some 1) (.changeFounder 1 2),
    .request (some 1) (.leave 1)]

theorem one_founder_sample :
    ∃ final, run CommunityEvent.step sampleCommunity handedOver = some final ∧ final.WellLed 1 := by
  let final := (run CommunityEvent.step sampleCommunity handedOver).get (by decide)
  have hrun : run CommunityEvent.step sampleCommunity handedOver = some final :=
    (Option.some_get _).symm
  exact ⟨final, hrun, one_founder sampleCommunity_fresh (by decide) (by decide) hrun 1
    (by decide +kernel)⟩

/-- The founder gives himself the rank of a novice. -/
def abdication : List CommunityEvent :=
  [.request (some 1) (.createAlliance (some "Orion") none), .request (some 1) (.changeUserRank 1 1 1)]

theorem founder_abdicates :
    ¬ ∀ (start final : Community) (events : List CommunityEvent), start.Fresh →
      (∀ event ∈ events, event.isFounding = true) →
      run CommunityEvent.step start events = some final → ∀ alliance,
        (final.alliances.get alliance).isSome = true → final.WellLed alliance := by
  intro hall
  let final := (run CommunityEvent.step sampleCommunity abdication).get (by decide)
  obtain ⟨⟨rank, hrank, user, ⟨member, hget, -, hid⟩, -⟩, -⟩ :=
    hall sampleCommunity final abdication sampleCommunity_fresh (by decide) (Option.some_get _).symm 1
      (by decide +kernel)
  have hnobody : ∀ user ∈ List.range 3, (final.users.get user).all fun member =>
      member.rank ≠ final.founderRank 1 := by decide +kernel
  have huser : user < 3 := (Table.lt_nextId hget).trans_eq (by decide +kernel)
  have hne := hnobody user (List.mem_range.mpr huser)
  rw [hget, Option.all_some, hrank, hid] at hne
  exact absurd rfl (of_decide_eq_true hne)

end Community

end Mmog

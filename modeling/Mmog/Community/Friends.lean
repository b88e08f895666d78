import Mmog.Community.Outcome

/-!
# Friends

Friends are rows of a table, one for each direction.  The table stays symmetric
and without duplicates as long as users become friends only when they are two
and no friends yet.
-/

namespace Mmog

open Ruby Action

namespace Community

/-- Some row says that `friend` is a friend of `user`. -/
def Has (t : Table Relationship) (user friend : UserId) : Prop := ∃ id, t.get id = some ⟨user, friend⟩

/-- Friendship goes both ways, each by one row, and nobody is a friend of himself. -/
structure Friendly (t : Table Relationship) : Prop where
  symmetric : ∀ user friend, Has t user friend ↔ Has t friend user
  once : ∀ first second row, t.get first = some row → t.get second = some row → first = second
  irreflexive : ∀ user, ¬ Has t user user

theorem has_iff_relationship {c : Community} {user friend : UserId} :
    Has c.relationships user friend ↔ (Member.relationship c user friend).isSome = true := by
  constructor
  · rintro ⟨id, hget⟩
    cases hfirst : Member.relationship c user friend with
    | some id => rfl
    | none =>
        have hfalse := Table.first_eq_none.mp hfirst id _ hget
        simp at hfalse
  · intro hsome
    obtain ⟨id, hid⟩ := Option.isSome_iff_exists.mp hsome
    obtain ⟨row, hget, htest⟩ := Table.first_eq_some hid
    obtain ⟨rfl, rfl⟩ := of_decide_eq_true htest
    exact ⟨id, hget⟩

namespace Friendly

variable {t : Table Relationship} {user friend : UserId}

theorem of_none (hnone : ∀ id, t.get id = none) : Friendly t := by
  have hhas : ∀ user friend, ¬ Has t user friend := by
    rintro user friend ⟨id, hget⟩
    rw [hnone id] at hget
    cases hget
  refine ⟨fun user friend => iff_of_false (hhas _ _) (hhas _ _), fun first second row hfirst => ?_,
    fun user => hhas user user⟩
  rw [hnone first] at hfirst
  cases hfirst

theorem get_befriended {id : ℕ} {row : Relationship}
    (hget : ((t.create ⟨user, friend⟩).create ⟨friend, user⟩).get id = some row) :
    t.get id = some row ∨ id = t.nextId ∧ row = ⟨user, friend⟩ ∨ id = t.nextId + 1 ∧ row = ⟨friend, user⟩ := by
  rw [Table.get_create, Table.get_create] at hget
  split at hget
  · rename_i heq
    exact Or.inr (Or.inr ⟨heq, (Option.some.inj hget).symm⟩)
  · split at hget
    · rename_i heq
      exact Or.inr (Or.inl ⟨heq, (Option.some.inj hget).symm⟩)
    · exact Or.inl hget

theorem has_befriended {first second : UserId} :
    Has ((t.create ⟨user, friend⟩).create ⟨friend, user⟩) first second ↔
      Has t first second ∨ first = user ∧ second = friend ∨ first = friend ∧ second = user := by
  constructor
  · rintro ⟨id, hget⟩
    rcases get_befriended hget with hold | ⟨-, hrow⟩ | ⟨-, hrow⟩
    · exact Or.inl ⟨id, hold⟩
    · cases hrow
      exact Or.inr (Or.inl ⟨rfl, rfl⟩)
    · cases hrow
      exact Or.inr (Or.inr ⟨rfl, rfl⟩)
  · rintro (⟨id, hget⟩ | ⟨rfl, rfl⟩ | ⟨rfl, rfl⟩)
    · exact ⟨id, Table.get_create_of_some _ (Table.get_create_of_some _ hget)⟩
    · exact ⟨_, Table.get_create_of_some _ (Table.get_create_self _ _)⟩
    · exact ⟨_, Table.get_create_self _ _⟩

/-- Two users who are no friends yet become friends. -/
theorem befriend (hfriendly : Friendly t) (hne : user ≠ friend) (hnot : ¬ Has t user friend) :
    Friendly ((t.create ⟨user, friend⟩).create ⟨friend, user⟩) := by
  have hback : ¬ Has t friend user := fun hhas => hnot ((hfriendly.symmetric friend user).mp hhas)
  refine ⟨fun first second => ?_, fun first second row hfirst hsecond => ?_, fun other hhas => ?_⟩
  · rw [has_befriended, has_befriended, hfriendly.symmetric first second]
    tauto
  · rcases get_befriended hfirst with hold | ⟨rfl, rfl⟩ | ⟨rfl, rfl⟩
    · rcases get_befriended hsecond with hold' | ⟨-, rfl⟩ | ⟨-, rfl⟩
      · exact hfriendly.once first second row hold hold'
      · exact absurd ⟨first, hold⟩ hnot
      · exact absurd ⟨first, hold⟩ hback
    · rcases get_befriended hsecond with hold' | ⟨rfl, -⟩ | ⟨-, hrow⟩
      · exact absurd ⟨second, hold'⟩ hnot
      · rfl
      · cases hrow
        exact absurd rfl hne
    · rcases get_befriended hsecond with hold' | ⟨-, hrow⟩ | ⟨rfl, -⟩
      · exact absurd ⟨second, hold'⟩ hback
      · cases hrow
        exact absurd rfl hne
      · rfl
  · rcases has_befriended.mp hhas with hold | ⟨rfl, heq⟩ | ⟨rfl, heq⟩
    · exact hfriendly.irreflexive other hold
    · exact hne heq
    · exact hne heq.symm

theorem has_parted (hfriendly : Friendly t) {forth back : ℕ} (hforth : t.get forth = some ⟨user, friend⟩)
    (hback : t.get back = some ⟨friend, user⟩) {first second : UserId} :
    Has ((t.destroy back).destroy forth) first second ↔
      Has t first second ∧ ¬ (first = user ∧ second = friend) ∧ ¬ (first = friend ∧ second = user) := by
  constructor
  · rintro ⟨id, hget⟩
    rw [Table.get_destroy, Table.get_destroy] at hget
    split at hget
    · cases hget
    · rename_i hidforth
      split at hget
      · cases hget
      · rename_i hidback
        refine ⟨⟨id, hget⟩, ?_, ?_⟩
        · rintro ⟨rfl, rfl⟩
          exact hidforth (hfriendly.once id forth _ hget hforth)
        · rintro ⟨rfl, rfl⟩
          exact hidback (hfriendly.once id back _ hget hback)
  · rintro ⟨⟨id, hget⟩, hnotforth, hnotback⟩
    refine ⟨id, ?_⟩
    rw [Table.get_destroy_of_ne, Table.get_destroy_of_ne]
    · exact hget
    · rintro rfl
      cases hget.symm.trans hback
      exact hnotback ⟨rfl, rfl⟩
    · rintro rfl
      cases hget.symm.trans hforth
      exact hnotforth ⟨rfl, rfl⟩

/-- Two friends part. -/
theorem part (hfriendly : Friendly t) {forth back : ℕ} (hforth : t.get forth = some ⟨user, friend⟩)
    (hback : t.get back = some ⟨friend, user⟩) : Friendly ((t.destroy back).destroy forth) := by
  refine ⟨fun first second => ?_, fun first second row hfirst hsecond => ?_, fun other hhas => ?_⟩
  · rw [hfriendly.has_parted hforth hback, hfriendly.has_parted hforth hback,
      hfriendly.symmetric first second]
    tauto
  · have hbefore : ∀ {id}, ((t.destroy back).destroy forth).get id = some row → t.get id = some row := by
      intro id hget
      rw [Table.get_destroy, Table.get_destroy] at hget
      split at hget
      · cases hget
      · split at hget
        · cases hget
        · exact hget
    exact hfriendly.once first second row (hbefore hfirst) (hbefore hsecond)
  · exact hfriendly.irreflexive other ((hfriendly.has_parted hforth hback).mp hhas).1

end Friendly

/-! ## Methods -/

theorem endFriendship_outcome (c : Community) (self other : UserId) :
    (Member.endFriendship self other).run c = .ok false c ∨
      ∃ forth back, c.relationships.get forth = some ⟨self, other⟩ ∧
        c.relationships.get back = some ⟨other, self⟩ ∧ (Member.endFriendship self other).run c =
          .ok true { c with relationships := (c.relationships.destroy back).destroy forth } := by
  rw [Member.endFriendship, run_bind_get]
  split
  · rename_i back forth hback hforth
    obtain ⟨row, hrow, htest⟩ := Table.first_eq_some hforth
    obtain ⟨rfl, rfl⟩ := of_decide_eq_true htest
    obtain ⟨row', hrow', htest'⟩ := Table.first_eq_some hback
    obtain ⟨huser, hfriend⟩ := of_decide_eq_true htest'
    refine Or.inr ⟨forth, back, hrow, ?_, rfl⟩
    rw [hrow', ← huser, ← hfriend]
  · exact Or.inl rfl

theorem endFriendship_safe (self other : UserId) :
    Safe (fun c => Friendly c.relationships) (Member.endFriendship self other) anything := by
  intro c hfriendly
  refine ⟨?_, fun _ _ => trivial⟩
  rcases endFriendship_outcome c self other with hsame | ⟨forth, back, hforth, hback, hparted⟩
  · rw [hsame]
    exact hfriendly
  · rw [hparted]
    exact hfriendly.part hforth hback

/-- When a friendship is ended, neither row is left. -/
theorem Friendly.ended {c : Community} (hfriendly : Friendly c.relationships) {self other : UserId}
    (hended : value? ((Member.endFriendship self other).run c) = some true) :
    ¬ Has (after ((Member.endFriendship self other).run c)).relationships self other ∧
      ¬ Has (after ((Member.endFriendship self other).run c)).relationships other self := by
  rcases endFriendship_outcome c self other with hsame | ⟨forth, back, hforth, hback, hparted⟩
  · rw [hsame] at hended
    cases hended
  · rw [hparted]
    exact ⟨fun hhas => ((hfriendly.has_parted hforth hback).mp hhas).2.1 ⟨rfl, rfl⟩,
      fun hhas => ((hfriendly.has_parted hforth hback).mp hhas).2.2 ⟨rfl, rfl⟩⟩

theorem addUser_relationships (c : Community) (alliance : AllianceId) (user : UserId) :
    (after ((Alliance.addUser alliance user).run c)).relationships = c.relationships := by
  rcases Alliance.addUser_outcome c alliance user with hsame | ⟨-, -, hstuck⟩ | ⟨standard, -, -, hjoined⟩
  · rw [hsame]
  · rw [hstuck]
    rfl
  · rw [hjoined]
    rfl

/-! ## Runs -/

/-- The request for friendship that is accepted. -/
def befriends (c : Community) : CommunityEvent → Option Request
  | .request (some user) (.reaction .yes token) =>
      ((c.pending user token).map Prod.snd).filter fun request => request.action = .friendshipInvite
  | _ => none

/-- Who become friends are two users who are none yet. -/
def Unrelated (c : Community) (event : CommunityEvent) : Prop :=
  ∀ request ∈ c.befriends event, request.sender ≠ request.recipient ∧
    Member.relationship c request.sender request.recipient = none

instance (c : Community) (event : CommunityEvent) : Decidable (c.Unrelated event) :=
  inferInstanceAs (Decidable (∀ request ∈ c.befriends event, _))

end Community

/-- Requests of users to one another, and the end of friendships. -/
def CommunityEvent.isOfFriends : CommunityEvent → Bool
  | .request _ (.createRequest _ _ _) => true
  | .request _ (.reaction _ _) => true
  | .request _ (.destroyRelationship _) => true
  | .call (.endFriendship _ _) => true
  | _ => false

namespace Community

theorem Friendly.reaction {c : Community} (hfriendly : Friendly c.relationships) {user : UserId}
    {answer : RequestsController.Answer} {token : ℕ}
    (hunrelated : c.Unrelated (.request (some user) (.reaction answer token))) :
    Friendly (after ((RequestsController.reaction user answer token).run c)).relationships := by
  cases hpending : c.pending user token with
  | none =>
      rw [reaction_of_none hpending]
      exact hfriendly
  | some found =>
      obtain ⟨id, request⟩ := found
      rw [reaction_of_pending hpending]
      cases answer with
      | no => exact hfriendly
      | other => exact hfriendly
      | yes =>
          dsimp only
          rw [Request.launchAction]
          cases haction : request.action with
          | other => exact hfriendly
          | friendshipInvite =>
              have hbefriends : c.befriends (.request (some user) (.reaction .yes token)) = some request := by
                rw [befriends, hpending]
                exact Option.filter_eq_some_iff.mpr ⟨rfl, decide_eq_true haction⟩
              obtain ⟨hne, hnone⟩ := hunrelated request hbefriends
              refine hfriendly.befriend hne fun hhas => ?_
              rw [has_iff_relationship, hnone] at hhas
              cases hhas
          | allianceInvite =>
              dsimp only
              rw [run_bind_get]
              cases c.allianceOf request.sender with
              | none => exact hfriendly
              | some alliance =>
                  have hadded : Safe (fun next => Friendly next.relationships)
                      (Alliance.addUser alliance request.recipient) anything := by
                    intro next hnext
                    refine ⟨?_, fun _ _ => trivial⟩
                    change Friendly (after ((Alliance.addUser alliance request.recipient).run next)).relationships
                    rw [addUser_relationships]
                    exact hnext
                  exact hadded.after_bind hfriendly (fun _ hnext => hnext) fun _ _ _ hnext => hnext

theorem Friendly.perform {c : Community} (hfriendly : Friendly c.relationships) {event : CommunityEvent}
    (hfriends : event.isOfFriends = true) (hunrelated : c.Unrelated event) :
    Friendly (after (event.perform.run c)).relationships := by
  cases event with
  | signUp alliance => cases hfriends
  | call method =>
      cases method with
      | endFriendship self other =>
          rw [CommunityEvent.perform, MethodCall.perform, after_bind_pure]
          exact (endFriendship_safe self other).after hfriendly
      | addScore | addAllianceScore | setDescription | addUser | removeUser | setFounder
      | changeUserRank => cases hfriends
  | request session asked =>
      cases session with
      | none => exact hfriendly
      | some user =>
          unfold CommunityEvent.perform
          rw [run_bind_get]
          split
          · cases asked with
            | createRequest action recipient value =>
                exact (createRequest_safe (I := fun c => Friendly c.relationships)
                  (fun _ _ hnext => hnext) user action recipient value).after hfriendly
            | reaction answer token => exact hfriendly.reaction hunrelated
            | destroyRelationship relationship =>
                change Friendly (after ((RelationshipsController.destroy user relationship).run c)).relationships
                rw [RelationshipsController.destroy, run_bind_get]
                cases c.relationships.get relationship with
                | none => exact hfriendly
                | some row =>
                    dsimp only
                    rw [after_bind_pure]
                    exact (endFriendship_safe user row.friend).after hfriendly
            | createAlliance | changeFounder | changeDefaultRank | changeDescription | changeUserRank
            | removeUser | leave | destroyAlliance | createRank | updateRank | destroyRank => cases hfriends
          · exact hfriendly

/-- As long as only two users who are no friends yet become friends, friendship is symmetric, without
duplicates and irreflexive, and when it is ended nothing is left of it. -/
theorem friendship_is_symmetric {start final : Community} {events : List CommunityEvent}
    (hnone : ∀ id, start.relationships.get id = none)
    (hfriends : ∀ event ∈ events, event.isOfFriends = true)
    (hunrelated : Along CommunityEvent.step Unrelated start events)
    (hrun : run CommunityEvent.step start events = some final) :
    Friendly final.relationships ∧ ∀ self other,
      value? ((Member.endFriendship self other).run final) = some true →
        ¬ Has (after ((Member.endFriendship self other).run final)).relationships self other ∧
          ¬ Has (after ((Member.endFriendship self other).run final)).relationships other self := by
  have hfriendly : Friendly final.relationships := by
    refine run_keeps (fun c => Friendly c.relationships) ?_ (Friendly.of_none hnone)
      ((along_of_forall hfriends).and hunrelated) hrun
    intro c event next hfriendly hevent hstep
    cases hstep
    exact hfriendly.perform hevent.1 hevent.2
  exact ⟨hfriendly, fun _ _ hended => hfriendly.ended hended⟩

/-- The second user declines a request of the first one and accepts the next. -/
def declinedAndAccepted : List CommunityEvent :=
  [.request (some 1) (.createRequest .friendshipInvite (some 2) 7), .request (some 2) (.reaction .no 7),
    .request (some 1) (.createRequest .friendshipInvite (some 2) 8), .request (some 2) (.reaction .yes 8)]

theorem friendship_is_symmetric_sample : ∃ final,
    run CommunityEvent.step sampleCommunity declinedAndAccepted = some final ∧
      Friendly final.relationships ∧
        ¬ Has (after ((Member.endFriendship 1 2).run final)).relationships 1 2 := by
  let final := (run CommunityEvent.step sampleCommunity declinedAndAccepted).get (by decide)
  have hrun : run CommunityEvent.step sampleCommunity declinedAndAccepted = some final :=
    (Option.some_get _).symm
  obtain ⟨hfriendly, hended⟩ := friendship_is_symmetric (fun _ => rfl) (by decide) (by decide) hrun
  exact ⟨final, hrun, hfriendly, (hended 1 2 (by decide)).1⟩

/-- Both users ask each other before either one accepts. -/
def crossed : List CommunityEvent :=
  [.request (some 1) (.createRequest .friendshipInvite (some 2) 7),
    .request (some 2) (.createRequest .friendshipInvite (some 1) 8),
    .request (some 2) (.reaction .yes 7), .request (some 1) (.reaction .yes 8)]

theorem crossed_requests_befriend_twice :
    ¬ ∀ (start final : Community) (events : List CommunityEvent),
      (∀ id, start.relationships.get id = none) → (∀ event ∈ events, event.isOfFriends = true) →
      run CommunityEvent.step start events = some final →
        Friendly final.relationships ∧ ∀ self other,
          value? ((Member.endFriendship self other).run final) = some true →
            ¬ Has (after ((Member.endFriendship self other).run final)).relationships self other ∧
              ¬ Has (after ((Member.endFriendship self other).run final)).relationships other self := by
  intro hall
  let final := (run CommunityEvent.step sampleCommunity crossed).get (by decide)
  obtain ⟨hfriendly, -⟩ := hall sampleCommunity final crossed (fun _ => rfl) (by decide)
    (Option.some_get _).symm
  have hfirst : final.relationships.get 1 = some ⟨1, 2⟩ := by decide
  have hfourth : final.relationships.get 4 = some ⟨1, 2⟩ := by decide
  exact absurd (hfriendly.once 1 4 _ hfirst hfourth) (by decide)

end Community

end Mmog

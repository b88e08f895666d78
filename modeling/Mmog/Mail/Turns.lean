import Mmog.Mail.Outcome
import Mmog.Ruby.Lineage

/-!
# Every event of the mail

An event marks rows or posts one message, and it keeps the mail tidy.
-/

namespace Mmog

open Ruby Action Mail

/-! ## Accounts -/

/-- Old ids belong to the accounts there were. -/
def AccountsGrow (old new : Table Member) : Prop := Table.Descends (fun _ _ _ => True) (fun _ => True) old new

namespace AccountsGrow

theorem refl (t : Table Member) : AccountsGrow t t := Table.Descends.refl (fun _ _ => True.intro) t

theorem trans {s t u : Table Member} (hfirst : AccountsGrow s t) (hsecond : AccountsGrow t u) : AccountsGrow s u :=
  Table.Descends.trans (fun _ _ _ _ _ _ => True.intro) (fun _ _ _ _ _ => True.intro) hfirst hsecond

/-- Who is there under an old id was there before. -/
theorem isSome {t u : Table Member} (hgrow : AccountsGrow t u) {user : UserId} (hold : user < t.nextId)
    (hsome : (u.get user).isSome = true) : (t.get user).isSome = true := by
  obtain ⟨member, hmember⟩ := Option.isSome_iff_exists.mp hsome
  obtain ⟨row, hrow, -⟩ := hgrow.old hmember hold
  rw [hrow]
  rfl

theorem frame (t : Table Member) : Community.AccountFrame fun c => AccountsGrow t c.users where
  users _ _ hgrow := hgrow.trans (Table.Descends.modify (fun _ _ => True.intro) _ fun _ _ => True.intro)
  others hgrow hsame := hsame ▸ hgrow

/-- No event of the community gives the id of an old account to a new one. -/
theorem perform (c : Community) (event : CommunityEvent) :
    AccountsGrow c.users (after (event.perform.run c)).users := by
  by_cases hsignUp : ∃ alliance, event = .signUp alliance
  · obtain ⟨alliance, rfl⟩ := hsignUp
    exact Table.Descends.create (fun _ _ => True.intro) c.users True.intro
  · have hnot : ∀ alliance, event ≠ .signUp alliance := fun alliance heq => hsignUp ⟨alliance, heq⟩
    exact ((frame c.users).perform hnot).after (refl c.users)

end AccountsGrow

namespace Mail

/-! ## What an event does -/

/-- An event marks what was asked for, or asks for nothing and posts a message. -/
inductive Turn (mail : Mail) (event : MailEvent) : Mail → Prop
  | marks {next : Mail} (hmessages : next.messages = mail.messages.mapEach (event.withdraw mail))
      (hentries : next.messagesUsers = mail.messagesUsers.mapEach fun _ => event.stamp mail)
      (haccounts : AccountsGrow mail.community.users next.community.users) : Turn mail event next
  | posts {message : Message} {recipients : List UserId} (hquiet : event.Quiet mail)
      (hnew : message.senderDeleted = false) (hsender : ∀ user ∈ message.sender, mail.isUser user = true)
      (hnodup : recipients.Nodup)
      (hrecipients : ∀ user ∈ recipients, mail.isUser user = true ∧ message.sender ≠ some user) :
      Turn mail event (mail.post message recipients)

variable {mail next : Mail} {event : MailEvent} {user : UserId} {id : MessageId} {place : ℕ} {row : MessagesUser}
  {message : Message}

/-- Nothing is marked by what only changes accounts. -/
theorem Turn.of_quiet (hquiet : event.Quiet mail) (hmessages : next.messages = mail.messages)
    (hentries : next.messagesUsers = mail.messagesUsers)
    (haccounts : AccountsGrow mail.community.users next.community.users) : Turn mail event next := by
  refine .marks ?_ ?_ haccounts
  · rw [hmessages, Table.mapEach_of_same fun id message _ => hquiet.withdraw id message]
  · rw [hentries, Table.mapEach_of_same fun _ row _ => hquiet.stamp row]

/-! ## Requests that mark -/

theorem stamp_request (huser : mail.isUser user = true) (asked : MailRequest) (row : MessagesUser) :
    (MailEvent.request (some user) asked).stamp mail row =
      if row.user = user then
        { row with
          read := row.read || asked.reads row.message
          recipientDeleted := row.recipientDeleted || asked.discards row.message }
      else row := by
  by_cases heq : row.user = user
  · subst heq
    simp [MailEvent.stamp, MailEvent.isAsked, huser]
  · simp [MailEvent.stamp, MailEvent.isAsked, heq, Ne.symm heq]

theorem withdraw_request (huser : mail.isUser user = true) (asked : MailRequest) (id : MessageId) (message : Message) :
    (MailEvent.request (some user) asked).withdraw mail id message =
      if message.sender = some user ∧ asked.withdraws id = true then message.setSenderDeleted else message := by
  have hflag : (message.sender.any fun sender =>
      (MailEvent.request (some user) asked).isAsked mail sender (MailRequest.withdraws id)) =
      decide (message.sender = some user ∧ asked.withdraws id = true) := by
    cases message.sender with
    | none => simp
    | some sender =>
        by_cases heq : sender = user
        · subst heq
          simp [MailEvent.isAsked, huser]
        · simp [MailEvent.isAsked, heq, Ne.symm heq]
  rw [MailEvent.withdraw, hflag]
  split
  · rename_i hboth
    rw [decide_eq_true hboth, Bool.or_true]
    rfl
  · rename_i hnot
    rw [decide_eq_false hnot, Bool.or_false]

/-- A request that changes the entries of its user, and withdraws his messages, as it is asked to. -/
theorem Turn.of_request {asked : MailRequest} {p : MessagesUser → Bool} {change : MessagesUser → MessagesUser}
    {q : MessageId → Bool} (huser : mail.isUser user = true)
    (hnext : next = (mail.changeEntries p change).withdrawSent user q)
    (hothers : ∀ row, p row = true → row.user = user)
    (hchange : ∀ row, row.user = user → (if p row = true then change row else row) =
      { row with
        read := row.read || asked.reads row.message
        recipientDeleted := row.recipientDeleted || asked.discards row.message })
    (hq : ∀ id, q id = asked.withdraws id) : Turn mail (.request (some user) asked) next := by
  subst hnext
  refine .marks (Table.mapEach_congr fun id message _ => ?_) (Table.mapEach_congr fun place row _ => ?_)
    (AccountsGrow.refl _)
  · rw [withdraw_request huser, hq]
  · rw [stamp_request huser]
    by_cases heq : row.user = user
    · rw [if_pos heq, hchange row heq]
    · rw [if_neg heq, if_neg fun hrow => heq (hothers row hrow)]

open MessagesController in
/-- The requests that read and delete. -/
theorem Turn.of_marking (haddressed : mail.Addressed) (huser : mail.isUser user = true) {asked : MailRequest}
    (hcreate : ∀ recipient subject body, asked ≠ .create recipient subject body)
    (hmail : ∀ alliance subject body, asked ≠ .sendMail alliance subject body) :
    Turn mail (.request (some user) asked) (after ((asked.perform user).run mail)) := by
  have hkeep : ∀ mail : Mail, mail.withdrawSent user (fun _ => false) = mail :=
    fun mail => withdrawSent_of_none fun _ _ _ _ => rfl
  cases asked with
  | create recipient subject body => exact absurd rfl (hcreate recipient subject body)
  | sendMail alliance subject body => exact absurd rfl (hmail alliance subject body)
  | showMessage id =>
      refine .of_request huser ((showMessage_after haddressed huser id).trans (hkeep _).symm)
        (fun row hrow => (of_decide_eq_true hrow).1) (fun row hrow => ?_) fun _ => rfl
      by_cases heq : row.message = id
      · simp [hrow, heq, MessagesUser.setRead, MailRequest.reads, MailRequest.discards]
      · simp [heq, Ne.symm heq, MailRequest.reads, MailRequest.discards]
  | destroy id =>
      refine .of_request huser (destroy_after haddressed huser id)
        (fun row hrow => (of_decide_eq_true hrow).1) (fun row hrow => ?_) fun other => decide_eq_decide.mpr eq_comm
      by_cases heq : row.message = id
      · simp [hrow, heq, MessagesController.discard, MessagesUser.setRead, MessagesUser.setRecipientDeleted, MailRequest.reads,
          MailRequest.discards]
      · simp [heq, Ne.symm heq, MailRequest.reads, MailRequest.discards]
  | flushInbox =>
      refine .of_request huser ((flushInbox_after haddressed user).trans (hkeep _).symm)
        (fun row hrow => of_decide_eq_true hrow) (fun row hrow => ?_) fun _ => rfl
      simp [hrow, MessagesController.discard, MessagesUser.setRead, MessagesUser.setRecipientDeleted, MailRequest.reads,
        MailRequest.discards]
  | flushOutbox =>
      have hsame : mail.changeEntries (fun _ => false) id = mail := changeEntries_of_none _ fun _ _ _ => rfl
      have hnext : after ((MailRequest.flushOutbox.perform user).run mail) =
          (mail.changeEntries (fun _ => false) id).withdrawSent user fun _ => true := by
        rw [hsame]
        exact flushOutbox_after user mail
      refine .of_request huser hnext (fun row hrow => (Bool.false_ne_true hrow).elim) (fun row hrow => ?_) fun _ => rfl
      simp [MailRequest.reads, MailRequest.discards]

/-! ## Requests that post -/

theorem Turn.of_create (huser : mail.isUser user = true) (recipient : Option UserId) (subject body : Option String) :
    Turn mail (.request (some user) (.create recipient subject body))
      (after ((MessagesController.create user recipient subject body).run mail)) := by
  have hquiet : (MailEvent.request (some user) (.create recipient subject body)).Quiet mail := fun other id => by
    simp [MailEvent.isAsked, MailRequest.reads, MailRequest.discards, MailRequest.withdraws]
  have hnothing : Turn mail (.request (some user) (.create recipient subject body)) mail :=
    .of_quiet hquiet rfl rfl (AccountsGrow.refl _)
  rw [MessagesController.create, run_bind_get]
  cases hrecipient : recipient.filter mail.isUser with
  | none => exact hnothing
  | some found =>
      obtain ⟨-, hfound⟩ := Option.filter_eq_some_iff.mp hrecipient
      dsimp only
      by_cases hself : user = found
      · rw [if_neg (not_not_intro hself)]
        exact hnothing
      · rw [if_pos hself]
        refine .posts hquiet rfl (fun sender hsender => ?_) (List.nodup_singleton found) fun other hother => ?_
        · obtain rfl := Option.some.inj hsender
          exact huser
        · obtain rfl := List.mem_singleton.mp hother
          exact ⟨hfound, fun heq => hself (Option.some.inj heq)⟩

theorem Turn.of_systemNotify (user : UserId) (head subject message : String) :
    Turn mail (.systemNotify user head subject message)
      (after ((systemNotify user head subject message).run mail)) := by
  have hquiet : (MailEvent.systemNotify user head subject message).Quiet mail := fun _ _ => ⟨rfl, rfl, rfl⟩
  rw [systemNotify, run_bind_get]
  split
  · rename_i huser
    refine .posts hquiet rfl (fun _ hsender => absurd hsender (Option.not_mem_none _)) (List.nodup_singleton user)
      fun other hother => ?_
    obtain rfl := List.mem_singleton.mp hother
    exact ⟨huser, (Option.some_ne_none _).symm⟩
  · exact .of_quiet hquiet rfl rfl (AccountsGrow.refl _)

theorem mem_others {alliance : AllianceId} {other : UserId} : other ∈ mail.others alliance user ↔
    (mail.community.users.get other).any (Community.inAlliance alliance) = true ∧ other ≠ user := by
  rw [others, List.mem_filter, Table.mem_select, decide_eq_true_eq, Option.any_eq_true]

/-- What a mass mail posts if the user may send one, and nothing otherwise. -/
theorem sendMail_after (mail : Mail) (user : UserId) (alliance : AllianceId) (subject body : Option String) :
    after ((AlliancesController.sendMail user alliance subject body).run mail) =
      if mail.community.permission? alliance user .massmail = true ∧ subject.isSome = true ∧ body.isSome = true then
        mail.post { sender := some user, subject := subject.map ("[Allianznachricht] " ++ ·), body }
          (mail.others alliance user)
      else mail := by
  rw [AlliancesController.sendMail, run_bind_get]
  by_cases hpermission : mail.community.permission? alliance user .massmail = true
  · obtain ⟨id, rank, hrank, halliance, hmassmail⟩ := Community.permission?_eq_true.mp hpermission
    obtain ⟨-, -, -, hlive⟩ := Community.allianceOf_eq_some.mp halliance
    obtain ⟨row, hrow⟩ := Option.isSome_iff_exists.mp hlive
    rw [hrow]
    cases subject with
    | none =>
        rw [if_neg fun hall => Bool.false_ne_true hall.2.1]
        rfl
    | some subject =>
        dsimp only
        rw [if_pos hpermission, after_bind_pure]
        cases body with
        | none =>
            rw [if_neg fun hall => Bool.false_ne_true hall.2.2]
            rfl
        | some body =>
            rw [Alliance.sendMassMail, run_bind_get, hrank]
            dsimp only
            rw [if_pos (show rank.canMassmail = true from hmassmail), if_pos ⟨hpermission, rfl, rfl⟩]
            rfl
  · rw [if_neg fun hall => hpermission hall.1]
    split
    · rfl
    · rfl
    · rw [if_neg hpermission]
      rfl

theorem Turn.of_sendMail (huser : mail.isUser user = true) (alliance : AllianceId) (subject body : Option String) :
    Turn mail (.request (some user) (.sendMail alliance subject body))
      (after ((AlliancesController.sendMail user alliance subject body).run mail)) := by
  have hquiet : (MailEvent.request (some user) (.sendMail alliance subject body)).Quiet mail := fun other id => by
    simp [MailEvent.isAsked, MailRequest.reads, MailRequest.discards, MailRequest.withdraws]
  rw [sendMail_after]
  split
  · refine .posts hquiet rfl (fun sender hsender => ?_) ((Table.nodup_select _ _).filter _) fun other hother => ?_
    · obtain rfl := Option.some.inj hsender
      exact huser
    · obtain ⟨hmember, hne⟩ := mem_others.mp hother
      obtain ⟨member, hget, -⟩ := (Option.any_eq_true _ _).mp hmember
      refine ⟨?_, fun heq => hne (Option.some.inj heq).symm⟩
      rw [isUser, hget]
      rfl
  · exact .of_quiet hquiet rfl rfl (AccountsGrow.refl _)

/-- Every event of an addressed mail is a turn. -/
theorem Turn.of_event (haddressed : mail.Addressed) (event : MailEvent) : Turn mail event (event.next mail) := by
  cases event with
  | community event =>
      exact .of_quiet (fun _ _ => ⟨rfl, rfl, rfl⟩) rfl rfl (AccountsGrow.perform mail.community event)
  | cancelAccount user =>
      exact .of_quiet (fun _ _ => ⟨rfl, rfl, rfl⟩) rfl rfl (Table.Descends.destroy (fun _ _ => True.intro) _ user)
  | systemNotify user head subject message => exact .of_systemNotify user head subject message
  | request session asked =>
      cases session with
      | none => exact .of_quiet (fun _ _ => ⟨rfl, rfl, rfl⟩) rfl rfl (AccountsGrow.refl _)
      | some user =>
          rw [MailEvent.next]
          split
          · rename_i huser
            cases asked with
            | create recipient subject body => exact .of_create huser recipient subject body
            | sendMail alliance subject body => exact .of_sendMail huser alliance subject body
            | _ => exact .of_marking haddressed huser (fun _ _ _ => MailRequest.noConfusion) fun _ _ _ => MailRequest.noConfusion
          · rename_i hnobody
            refine .of_quiet (fun other id => ?_) rfl rfl (AccountsGrow.refl _)
            have hnot : ∀ property, (MailEvent.request (some user) asked).isAsked mail other property = false := by
              intro property
              refine decide_eq_false ?_
              rintro ⟨rfl, huser, -⟩
              exact hnobody huser
            exact ⟨hnot _, hnot _, hnot _⟩

/-! ## What stays -/

theorem lt_nextId_of_isUser (huser : mail.isUser user = true) : user < mail.community.users.nextId := by
  obtain ⟨member, hmember⟩ := Option.isSome_iff_exists.mp huser
  exact Table.lt_nextId hmember

/-- A message to others keeps the mail tidy. -/
theorem Tidy.post (htidy : mail.Tidy) {recipients : List UserId}
    (hsender : ∀ user ∈ message.sender, mail.isUser user = true) (hnodup : recipients.Nodup)
    (hrecipients : ∀ user ∈ recipients, mail.isUser user = true ∧ message.sender ≠ some user) :
    (mail.post message recipients).Tidy := by
  have hbefore : ∀ {place row}, (mail.post message recipients).messagesUsers.get place = some row →
      mail.messagesUsers.get place = some row ∧ row.message ≠ mail.messages.nextId ∨
        ∃ index user, recipients[index]? = some user ∧ place = mail.messagesUsers.nextId + index ∧
          row = { user, message := mail.messages.nextId } := by
    intro place row hget
    obtain hold | ⟨index, hrow, hplace⟩ := Table.get_createAll_eq_some.mp hget
    · obtain ⟨sent, hsent⟩ := Option.isSome_iff_exists.mp (htidy.known place row hold)
      exact .inl ⟨hold, Table.ne_nextId hsent⟩
    · rw [List.getElem?_map, Option.map_eq_some_iff] at hrow
      obtain ⟨user, huser, rfl⟩ := hrow
      exact .inr ⟨index, user, huser, hplace, rfl⟩
  have hold : ∀ {id}, id ≠ mail.messages.nextId → (mail.post message recipients).messages.get id = mail.messages.get id :=
    fun hne => (Table.get_create mail.messages message _).trans (if_neg hne)
  have hnew : (mail.post message recipients).messages.get mail.messages.nextId = some message :=
    Table.get_create_self mail.messages message
  refine ⟨⟨fun place row hget => ?_, fun first second row found hfirst hsecond huser hsame => ?_,
    fun place row hget sent hsent => ?_⟩, fun place row hget => ?_, fun id sent hget => ?_, fun place row hget => ?_⟩
  · obtain ⟨hget, hne⟩ | ⟨index, user, huser, -, rfl⟩ := hbefore hget
    · rw [hold hne]
      exact htidy.known place row hget
    · rw [hnew]
      rfl
  · obtain ⟨hget, hne⟩ | ⟨index, user, hindex, rfl, rfl⟩ := hbefore hfirst
    · obtain ⟨hget', -⟩ | ⟨other, user', hother, rfl, rfl⟩ := hbefore hsecond
      · exact htidy.once first second row found hget hget' huser hsame
      · exact absurd hsame hne
    · obtain ⟨-, hne⟩ | ⟨other, user', hother, rfl, rfl⟩ := hbefore hsecond
      · exact absurd hsame.symm hne
      · obtain rfl : user = user' := huser
        have hlt : index < recipients.length := (List.getElem?_eq_some_iff.mp hindex).1
        rw [(List.getElem?_inj hlt hnodup).mp (hindex.trans hother.symm)]
  · obtain ⟨hget, hne⟩ | ⟨index, user, huser, -, rfl⟩ := hbefore hget
    · exact htidy.foreign place row hget sent ((hold hne).symm.trans hsent)
    · obtain rfl := Option.some.inj (hnew.symm.trans hsent)
      exact (hrecipients user (List.mem_of_getElem? huser)).2
  · obtain ⟨hget, -⟩ | ⟨index, user, huser, -, rfl⟩ := hbefore hget
    · exact htidy.registered place row hget
    · exact lt_nextId_of_isUser (hrecipients user (List.mem_of_getElem? huser)).1
  · intro user huser
    by_cases heq : id = mail.messages.nextId
    · subst heq
      obtain rfl := Option.some.inj (hnew.symm.trans hget)
      exact lt_nextId_of_isUser (hsender user huser)
    · exact htidy.written id sent ((hold heq).symm.trans hget) user huser
  · obtain ⟨hget, -⟩ | ⟨index, user, huser, -, rfl⟩ := hbefore hget
    · exact htidy.seen place row hget
    · exact fun hdeleted => absurd hdeleted Bool.false_ne_true

namespace Turn

/-- The rows of an entry and of a message stay, with their marks. -/
theorem get_entry (hturn : Turn mail event next) (hget : mail.messagesUsers.get place = some row) :
    next.messagesUsers.get place = some (event.stamp mail row) := by
  cases hturn with
  | marks hmessages hentries haccounts => rw [hentries, Table.get_mapEach, hget, Option.map_some]
  | posts hquiet hnew hsender hnodup hrecipients =>
      rw [hquiet.stamp]
      exact Table.get_createAll_of_some _ hget

theorem get_message (hturn : Turn mail event next) (hget : mail.messages.get id = some message) :
    next.messages.get id = some (event.withdraw mail id message) := by
  cases hturn with
  | marks hmessages hentries haccounts => rw [hmessages, Table.get_mapEach, hget, Option.map_some]
  | posts hquiet hnew hsender hnodup hrecipients =>
      rw [hquiet.withdraw]
      exact Table.get_create_of_some _ hget

/-- An entry was there before, or it is an unmarked one for the message that is new. -/
theorem origin (hturn : Turn mail event next) (hget : next.messagesUsers.get place = some row) :
    (∃ old, mail.messagesUsers.get place = some old ∧ row = event.stamp mail old) ∨
      mail.messagesUsers.get place = none ∧ row = { user := row.user, message := mail.messages.nextId } := by
  cases hturn with
  | marks hmessages hentries haccounts =>
      rw [hentries, Table.get_mapEach] at hget
      obtain ⟨old, hold, rfl⟩ := Option.map_eq_some_iff.mp hget
      exact .inl ⟨old, hold, rfl⟩
  | posts hquiet hnew hsender hnodup hrecipients =>
      obtain hold | ⟨index, hrow, rfl⟩ := Table.get_createAll_eq_some.mp hget
      · exact .inl ⟨row, hold, (hquiet.stamp row).symm⟩
      · obtain ⟨user, -, rfl⟩ := List.mem_map.mp (List.mem_of_getElem? hrow)
        exact .inr ⟨mail.messagesUsers.fresh _ (Nat.le_add_right _ _), rfl⟩

/-- A message was there before, or it is the new one, which nobody has withdrawn. -/
theorem origin_message (hturn : Turn mail event next) (hget : next.messages.get id = some message) :
    (∃ old, mail.messages.get id = some old ∧ message = event.withdraw mail id old) ∨
      id = mail.messages.nextId ∧ message.senderDeleted = false := by
  cases hturn with
  | marks hmessages hentries haccounts =>
      rw [hmessages, Table.get_mapEach] at hget
      obtain ⟨old, hold, rfl⟩ := Option.map_eq_some_iff.mp hget
      exact .inl ⟨old, hold, rfl⟩
  | posts hquiet hnew hsender hnodup hrecipients =>
      have hcreate := Table.get_create mail.messages _ id ▸ (show (mail.messages.create _).get id = some message from hget)
      split at hcreate
      · rename_i heq
        obtain rfl := Option.some.inj hcreate
        exact .inr ⟨heq, hnew⟩
      · exact .inl ⟨message, hcreate, (hquiet.withdraw id message).symm⟩

theorem accounts (hturn : Turn mail event next) : AccountsGrow mail.community.users next.community.users := by
  cases hturn with
  | marks hmessages hentries haccounts => exact haccounts
  | posts hquiet hnew hsender hnodup hrecipients => exact AccountsGrow.refl _

/-- An event keeps the mail tidy. -/
theorem tidy (hturn : Turn mail event next) (htidy : mail.Tidy) : next.Tidy := by
  have hnextId := hturn.accounts.nextId_le
  cases hturn with
  | marks hmessages hentries haccounts =>
      have hbefore : ∀ {place row}, next.messagesUsers.get place = some row →
          ∃ old, mail.messagesUsers.get place = some old ∧ row = event.stamp mail old := by
        intro place row hget
        rw [hentries, Table.get_mapEach] at hget
        obtain ⟨old, hold, rfl⟩ := Option.map_eq_some_iff.mp hget
        exact ⟨old, hold, rfl⟩
      have hmessage : ∀ {id message}, next.messages.get id = some message →
          ∃ old, mail.messages.get id = some old ∧ message.sender = old.sender := by
        intro id message hget
        rw [hmessages, Table.get_mapEach] at hget
        obtain ⟨old, hold, rfl⟩ := Option.map_eq_some_iff.mp hget
        exact ⟨old, hold, rfl⟩
      refine ⟨⟨fun place row hget => ?_, fun first second row found hfirst hsecond huser hsame => ?_,
        fun place row hget message hfound => ?_⟩, fun place row hget => ?_, fun id message hget user hmem => ?_,
        fun place row hget hdeleted => ?_⟩
      · obtain ⟨old, hold, rfl⟩ := hbefore hget
        rw [hmessages, Table.get_mapEach, Option.isSome_map]
        exact htidy.known place old hold
      · obtain ⟨old, hold, rfl⟩ := hbefore hfirst
        obtain ⟨old', hold', rfl⟩ := hbefore hsecond
        exact htidy.once first second old old' hold hold' huser hsame
      · obtain ⟨old, hold, rfl⟩ := hbefore hget
        obtain ⟨sent, hsent, hsender⟩ := hmessage hfound
        rw [hsender]
        exact htidy.foreign place old hold sent hsent
      · obtain ⟨old, hold, rfl⟩ := hbefore hget
        exact (htidy.registered place old hold).trans_le hnextId
      · obtain ⟨sent, hsent, hsender⟩ := hmessage hget
        exact (htidy.written id sent hsent user (hsender ▸ hmem)).trans_le hnextId
      · obtain ⟨old, hold, rfl⟩ := hbefore hget
        rcases Bool.or_eq_true_iff.mp hdeleted with hearlier | hasked
        · exact Bool.or_eq_true_iff.mpr (.inl (htidy.seen place old hold hearlier))
        · exact Bool.or_eq_true_iff.mpr (.inr (MailEvent.isAsked_reads hasked))
  | posts hquiet hnew hsender hnodup hrecipients => exact htidy.post hsender hnodup hrecipients

end Turn

end Mail

end Mmog

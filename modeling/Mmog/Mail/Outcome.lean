import Mmog.Community.Accounts
import Mmog.Model.Mail
import Mmog.Ruby.Marking

/-!
# What an event does to the mail

In a tidy mail every recipient of a message has one entry for it, and nobody
writes to himself.  Then an event either marks rows, exactly those its user
asked for, or it posts one message.
-/

namespace Mmog

open Ruby Action

/-! ## What users ask for -/

namespace MailRequest

/-- The request reads a message that the user has received. -/
def reads (id : MessageId) : MailRequest → Bool
  | showMessage other => other = id
  | destroy other => other = id
  | flushInbox => true
  | _ => false

/-- The request deletes a message that the user has received. -/
def discards (id : MessageId) : MailRequest → Bool
  | destroy other => other = id
  | flushInbox => true
  | _ => false

/-- The request deletes a message that the user has sent. -/
def withdraws (id : MessageId) : MailRequest → Bool
  | destroy other => other = id
  | flushOutbox => true
  | _ => false

end MailRequest

namespace MailEvent

/-- The event is a request of this user, who has an account, with a property. -/
def isAsked (mail : Mail) (user : UserId) (property : MailRequest → Bool) : MailEvent → Bool
  | .request (some session) asked => session = user ∧ mail.isUser user = true ∧ property asked = true
  | _ => false

/-- An entry with the marks that the event sets on it. -/
def stamp (mail : Mail) (event : MailEvent) (row : MessagesUser) : MessagesUser :=
  { row with
    read := row.read || event.isAsked mail row.user (MailRequest.reads row.message)
    recipientDeleted := row.recipientDeleted || event.isAsked mail row.user (MailRequest.discards row.message) }

/-- A message with the mark that the event sets on it. -/
def withdraw (mail : Mail) (event : MailEvent) (id : MessageId) (message : Message) : Message :=
  { message with
    senderDeleted := message.senderDeleted ||
      message.sender.any fun user => event.isAsked mail user (MailRequest.withdraws id) }

/-- The event asks nobody to mark anything. -/
def Quiet (mail : Mail) (event : MailEvent) : Prop :=
  ∀ user id, event.isAsked mail user (MailRequest.reads id) = false ∧
    event.isAsked mail user (MailRequest.discards id) = false ∧
    event.isAsked mail user (MailRequest.withdraws id) = false

variable {mail : Mail} {event : MailEvent}

/-- What is deleted is read. -/
theorem isAsked_reads {user : UserId} {id : MessageId} (hasked : event.isAsked mail user (MailRequest.discards id) = true) :
    event.isAsked mail user (MailRequest.reads id) = true := by
  cases event with
  | request session asked =>
      cases session with
      | none => cases hasked
      | some session =>
          obtain ⟨hsession, huser, hdiscards⟩ := of_decide_eq_true hasked
          refine decide_eq_true ⟨hsession, huser, ?_⟩
          cases asked with
          | destroy other => exact hdiscards
          | flushInbox => rfl
          | _ => cases hdiscards
  | _ => cases hasked

theorem Quiet.stamp (hquiet : event.Quiet mail) (row : MessagesUser) : event.stamp mail row = row := by
  rw [MailEvent.stamp, (hquiet row.user row.message).1, (hquiet row.user row.message).2.1, Bool.or_false, Bool.or_false]

theorem Quiet.withdraw (hquiet : event.Quiet mail) (id : MessageId) (message : Message) :
    event.withdraw mail id message = message := by
  have hnobody : (message.sender.any fun user => event.isAsked mail user (MailRequest.withdraws id)) = false := by
    cases message.sender with
    | none => rfl
    | some user => exact (hquiet user id).2.2
  rw [MailEvent.withdraw, hnobody, Bool.or_false]

end MailEvent

/-! ## Tidy mail -/

namespace Mail

/-- A recipient of a message has one entry for it, and is not its sender. -/
structure Addressed (mail : Mail) : Prop where
  known : mail.messagesUsers.All fun row => (mail.messages.get row.message).isSome = true
  once : ∀ first second row found, mail.messagesUsers.get first = some row → mail.messagesUsers.get second = some found →
    row.user = found.user → row.message = found.message → first = second
  foreign : mail.messagesUsers.All fun row => ∀ message ∈ mail.messages.get row.message, message.sender ≠ some row.user

/-- Who wrote or received anything was registered, and what was deleted was read. -/
structure Tidy (mail : Mail) : Prop extends Addressed mail where
  registered : mail.messagesUsers.All fun row => row.user < mail.community.users.nextId
  written : mail.messages.All fun message => ∀ user ∈ message.sender, user < mail.community.users.nextId
  seen : mail.messagesUsers.All fun row => row.recipientDeleted = true → row.read = true

theorem Fresh.tidy {mail : Mail} (hfresh : mail.Fresh) : mail.Tidy := by
  have hnone : ∀ id row, mail.messagesUsers.get id ≠ some row := fun id row hget =>
    Option.some_ne_none row (hget.symm.trans (hfresh.messagesUsers id))
  refine ⟨⟨fun id row hget => absurd hget (hnone id row), fun id _ row _ hget => absurd hget (hnone id row),
    fun id row hget => absurd hget (hnone id row)⟩, fun id row hget => absurd hget (hnone id row),
    fun id message hget => ?_, fun id row hget => absurd hget (hnone id row)⟩
  exact absurd (hget.symm.trans (hfresh.messages id)) (Option.some_ne_none _)

variable {mail : Mail} {user : UserId} {id : MessageId} {place : ℕ} {row : MessagesUser} {message : Message}

theorem entry_eq_some (hentry : mail.entry user id = some place) :
    ∃ row, mail.messagesUsers.get place = some row ∧ row.user = user ∧ row.message = id := by
  obtain ⟨row, hget, htest⟩ := Table.first_eq_some hentry
  exact ⟨row, hget, of_decide_eq_true htest⟩

theorem entry_eq_none (hentry : mail.entry user id = none) (hget : mail.messagesUsers.get place = some row) :
    ¬(row.user = user ∧ row.message = id) :=
  of_decide_eq_false (Table.first_eq_none.mp hentry place row hget)

theorem isSome_entry : (mail.entry user id).isSome = true ↔
    ∃ place row, mail.messagesUsers.get place = some row ∧ row.user = user ∧ row.message = id := by
  constructor
  · intro hsome
    obtain ⟨place, hentry⟩ := Option.isSome_iff_exists.mp hsome
    obtain ⟨row, hrow⟩ := entry_eq_some hentry
    exact ⟨place, row, hrow⟩
  · rintro ⟨place, row, hget, huser⟩
    by_contra hnone
    exact entry_eq_none (Option.not_isSome_iff_eq_none.mp hnone) hget huser

theorem senderOf_eq_some : mail.senderOf message = some user ↔ message.sender = some user ∧ mail.isUser user = true := by
  rw [senderOf, Option.filter_eq_some_iff]

namespace Addressed

/-- A recipient's entry is the one that is found for him. -/
theorem entry_of_get (haddressed : mail.Addressed) (hget : mail.messagesUsers.get place = some row) :
    mail.entry row.user row.message = some place := by
  cases hentry : mail.entry row.user row.message with
  | none => exact absurd ⟨rfl, rfl⟩ (entry_eq_none hentry hget)
  | some first =>
      obtain ⟨found, hfound, huser, hmessage⟩ := entry_eq_some hentry
      rw [haddressed.once first place found row hfound hget huser hmessage]

/-- The sender of a message that is received is somebody else. -/
theorem senderOf_ne (haddressed : mail.Addressed) (hget : mail.messagesUsers.get place = some row)
    (hmessage : mail.messages.get row.message = some message) : mail.senderOf message ≠ some row.user :=
  fun hsender => haddressed.foreign place row hget message hmessage (senderOf_eq_some.mp hsender).1

/-- Marks do not matter. -/
theorem mapEach (haddressed : mail.Addressed) {change : ℕ → MessagesUser → MessagesUser}
    (hchange : ∀ place row, (change place row).user = row.user ∧ (change place row).message = row.message) :
    (mail.setMessagesUsers (mail.messagesUsers.mapEach change)).Addressed := by
  have hbefore : ∀ {place row}, (mail.messagesUsers.mapEach change).get place = some row →
      ∃ old, mail.messagesUsers.get place = some old ∧ row.user = old.user ∧ row.message = old.message := by
    intro place row hget
    obtain ⟨old, hold, rfl⟩ := Option.map_eq_some_iff.mp hget
    exact ⟨old, hold, hchange place old⟩
  refine ⟨fun place row hget => ?_, fun first second row found hfirst hsecond huser hmessage => ?_,
    fun place row hget message hmessage => ?_⟩
  · obtain ⟨old, hold, -, hsame⟩ := hbefore hget
    exact hsame ▸ haddressed.known place old hold
  · obtain ⟨old, hold, husers, hmessages⟩ := hbefore hfirst
    obtain ⟨old', hold', husers', hmessages'⟩ := hbefore hsecond
    exact haddressed.once first second old old' hold hold' (husers.symm.trans (huser.trans husers'))
      (hmessages.symm.trans (hmessage.trans hmessages'))
  · obtain ⟨old, hold, husers, hmessages⟩ := hbefore hget
    rw [hmessages] at hmessage
    exact husers ▸ haddressed.foreign place old hold message hmessage

theorem modify (haddressed : mail.Addressed) (place : ℕ) {change : MessagesUser → MessagesUser}
    (hchange : ∀ row, (change row).user = row.user ∧ (change row).message = row.message) :
    (mail.setMessagesUsers (mail.messagesUsers.modify place change)).Addressed := by
  rw [Table.modify_eq_mapEach]
  refine haddressed.mapEach fun other row => ?_
  split
  · exact hchange row
  · exact ⟨rfl, rfl⟩

end Addressed

/-- The entries of a user for a message, or of all messages, are changed alike. -/
def changeEntries (mail : Mail) (p : MessagesUser → Bool) (change : MessagesUser → MessagesUser) : Mail :=
  mail.setMessagesUsers (mail.messagesUsers.mapEach fun _ row => if p row then change row else row)

/-- The messages that a user has sent are withdrawn. -/
def withdrawSent (mail : Mail) (user : UserId) (p : MessageId → Bool) : Mail :=
  mail.setMessages (mail.messages.mapEach fun id message =>
    if message.sender = some user ∧ p id then message.setSenderDeleted else message)

theorem changeEntries_of_none {p : MessagesUser → Bool} (change : MessagesUser → MessagesUser)
    (hnone : mail.messagesUsers.All fun row => p row = false) : mail.changeEntries p change = mail := by
  have hkept : ∀ place row, mail.messagesUsers.get place = some row → (if p row then change row else row) = row :=
    fun place row hget => if_neg (Bool.eq_false_iff.mp (hnone place row hget))
  have hsame := Table.mapEach_of_same hkept
  rw [changeEntries, hsame]
  rfl

theorem withdrawSent_of_none {p : MessageId → Bool}
    (hnone : ∀ id message, mail.messages.get id = some message → message.sender = some user → p id = false) :
    mail.withdrawSent user p = mail := by
  have hkept : ∀ id message, mail.messages.get id = some message →
      (if message.sender = some user ∧ p id then message.setSenderDeleted else message) = message :=
    fun id message hget => if_neg fun hboth => Bool.eq_false_iff.mp (hnone id message hget hboth.1) hboth.2
  have hsame := Table.mapEach_of_same hkept
  rw [withdrawSent, hsame]
  rfl

end Mail

open Mail

/-! ## Actions -/

variable {mail : Mail} {user : UserId} {id : MessageId} {place : ℕ} {row : MessagesUser} {message : Message}

theorem Message.find_of_some (hget : mail.messages.get id = some message) : (find id).run mail = .ok message mail := by
  rw [find, run_bind_get, hget]
  rfl

theorem Message.find_of_none (hget : mail.messages.get id = none) : (find id).run mail = .error .recordNotFound mail := by
  rw [find, run_bind_get, hget]
  rfl

/-- A recipient's entry is tagged. -/
theorem Message.tagMsgAsSeen_run (haddressed : mail.Addressed) (hget : mail.messagesUsers.get place = some row)
    (hmessage : mail.messages.get row.message = some message) :
    (message.tagMsgAsSeen row.message row.user).run mail =
      .ok ⟨⟩ (mail.setMessagesUsers (mail.messagesUsers.modify place MessagesUser.setRead)) := by
  rw [tagMsgAsSeen, run_bind_get, if_pos (haddressed.senderOf_ne hget hmessage), haddressed.entry_of_get hget]
  rfl

namespace MessagesController

/-- Deleting an entry also reads it. -/
def discard (row : MessagesUser) : MessagesUser := row.setRecipientDeleted.setRead

/-- What a user who has an entry for a message does is done to that entry. -/
theorem modify_eq_changeEntries (haddressed : mail.Addressed) (hget : mail.messagesUsers.get place = some row)
    (change : MessagesUser → MessagesUser) :
    mail.setMessagesUsers (mail.messagesUsers.modify place change) =
      mail.changeEntries (fun found => found.user = row.user ∧ found.message = row.message) change := by
  rw [changeEntries, Table.modify_eq_mapEach]
  refine congrArg mail.setMessagesUsers (Table.mapEach_congr fun other found hfound => ?_)
  refine if_congr ⟨?_, fun hsame => ?_⟩ rfl rfl
  · rintro rfl
    obtain rfl := Option.some.inj (hget.symm.trans hfound)
    exact decide_eq_true ⟨rfl, rfl⟩
  · obtain ⟨huser, hmessage⟩ := of_decide_eq_true hsame
    exact haddressed.once other place found row hfound hget huser hmessage

theorem showMessage_after (haddressed : mail.Addressed) (huser : mail.isUser user = true) (id : MessageId) :
    after ((showMessage user id).run mail) =
      mail.changeEntries (fun row => row.user = user ∧ row.message = id) MessagesUser.setRead := by
  rw [showMessage]
  cases hmessage : mail.messages.get id with
  | none =>
      rw [run_bind_of_error (Message.find_of_none hmessage), changeEntries_of_none]
      · rfl
      · intro place row hget
        refine decide_eq_false fun hboth => ?_
        have hknown : (mail.messages.get row.message).isSome = true := haddressed.known place row hget
        rw [hboth.2, hmessage] at hknown
        cases hknown
  | some message =>
      rw [run_bind_of_ok (Message.find_of_some hmessage), run_bind_get]
      cases hentry : mail.entry user id with
      | none =>
          have hnone : mail.messagesUsers.All fun row => decide (row.user = user ∧ row.message = id) = false :=
            fun place row hget => decide_eq_false (entry_eq_none hentry hget)
          rw [changeEntries_of_none _ hnone]
          have hnot : mail.isRecipient user id = false := by rw [isRecipient, hentry, Option.isSome_none, Bool.false_and]
          rw [isReadable, Option.any_some, hnot, Bool.or_false]
          by_cases hsender : mail.senderOf message = some user
          · rw [if_pos (decide_eq_true hsender), if_neg (not_not_intro hsender)]
            rfl
          · rw [if_neg (by simpa using hsender)]
            rfl
      | some place =>
          obtain ⟨row, hget, rfl, rfl⟩ := entry_eq_some hentry
          have hrecipient : mail.isRecipient row.user row.message = true := by
            rw [isRecipient, hentry, Option.isSome_some, huser, Bool.and_self]
          rw [isReadable, Option.any_some, hrecipient, Bool.or_true, if_pos rfl,
            if_pos (haddressed.senderOf_ne hget hmessage), Message.tagMsgAsSeen_run haddressed hget hmessage]
          exact modify_eq_changeEntries haddressed hget _

/-- The entry of a recipient is deleted, and tagged. -/
theorem discard_run (haddressed : mail.Addressed) (hget : mail.messagesUsers.get place = some row)
    (hmessage : mail.messages.get row.message = some message) :
    (do
      modify fun mail => mail.setMessagesUsers (mail.messagesUsers.modify place MessagesUser.setRecipientDeleted)
      message.tagMsgAsSeen row.message row.user : MailAct Unit).run mail =
      .ok ⟨⟩ (mail.setMessagesUsers (mail.messagesUsers.modify place discard)) := by
  have hsame : ∀ row : MessagesUser,
      row.setRecipientDeleted.user = row.user ∧ row.setRecipientDeleted.message = row.message := fun _ => ⟨rfl, rfl⟩
  have hdeleted := haddressed.modify place hsame
  have hnew : (mail.messagesUsers.modify place MessagesUser.setRecipientDeleted).get place = some row.setRecipientDeleted :=
    Table.get_modify_self _ hget
  rw [run_bind_modify]
  refine (Message.tagMsgAsSeen_run hdeleted hnew hmessage).trans ?_
  change EStateM.Result.ok _ (mail.setMessagesUsers ((mail.messagesUsers.modify place _).modify place _)) = _
  rw [Table.modify_modify]
  rfl

theorem destroy_after (haddressed : mail.Addressed) (huser : mail.isUser user = true) (id : MessageId) :
    after ((destroy user id).run mail) =
      (mail.changeEntries (fun row => row.user = user ∧ row.message = id) discard).withdrawSent user (· = id) := by
  rw [destroy]
  cases hmessage : mail.messages.get id with
  | none =>
      rw [run_bind_of_error (Message.find_of_none hmessage), changeEntries_of_none, withdrawSent_of_none]
      · rfl
      · intro other message hget _
        refine decide_eq_false ?_
        rintro rfl
        exact Option.some_ne_none message (hget.symm.trans hmessage)
      · intro place row hget
        refine decide_eq_false fun hboth => ?_
        have hknown : (mail.messages.get row.message).isSome = true := haddressed.known place row hget
        rw [hboth.2, hmessage] at hknown
        cases hknown
  | some message =>
      rw [run_bind_of_ok (Message.find_of_some hmessage), run_bind_get, isRecipient]
      cases hentry : mail.entry user id with
      | none =>
          have hnone : mail.messagesUsers.All fun row => decide (row.user = user ∧ row.message = id) = false :=
            fun place row hget => decide_eq_false (entry_eq_none hentry hget)
          rw [changeEntries_of_none _ hnone, Option.isSome_none, Bool.false_and, if_neg Bool.false_ne_true]
          by_cases hsender : message.sender = some user
          · rw [if_pos (senderOf_eq_some.mpr ⟨hsender, huser⟩)]
            change mail.setMessages _ = _
            rw [withdrawSent, Table.modify_eq_mapEach]
            refine congrArg mail.setMessages (Table.mapEach_congr fun other found hfound => if_congr ?_ rfl rfl)
            refine ⟨?_, fun hboth => of_decide_eq_true hboth.2⟩
            rintro rfl
            obtain rfl := Option.some.inj (hmessage.symm.trans hfound)
            exact ⟨hsender, decide_eq_true rfl⟩
          · rw [if_neg fun hsent => hsender (senderOf_eq_some.mp hsent).1, withdrawSent_of_none]
            · rfl
            · intro other found hfound hsent
              refine decide_eq_false ?_
              rintro rfl
              obtain rfl := Option.some.inj (hmessage.symm.trans hfound)
              exact hsender hsent
      | some place =>
          obtain ⟨row, hget, rfl, rfl⟩ := entry_eq_some hentry
          have hforeign := haddressed.foreign place row hget message hmessage
          rw [Option.isSome_some, huser, Bool.and_self, if_pos rfl]
          change after ((do
            modify fun mail => mail.setMessagesUsers (mail.messagesUsers.modify place MessagesUser.setRecipientDeleted)
            message.tagMsgAsSeen row.message row.user : MailAct Unit).run mail) = _
          rw [discard_run haddressed hget hmessage, after_ok, modify_eq_changeEntries haddressed hget, withdrawSent_of_none]
          intro other found hfound hsent
          refine decide_eq_false ?_
          rintro rfl
          obtain rfl := Option.some.inj (hmessage.symm.trans hfound)
          exact hforeign hsent

/-- The loop over the entries of a user, which are as they were when it started but for their marks. -/
theorem tagEntry_run {next : Mail} (hmessage : mail.messages.get row.message = some message)
    (hsame : next.messages = mail.messages) :
    (tagEntry user row).run next = (message.tagMsgAsSeen row.message user).run next := by
  rw [tagEntry, run_bind_get, hsame, hmessage]

theorem discardAll_run (haddressed : mail.Addressed) {rows : List (ℕ × MessagesUser)} (hnodup : (rows.map Prod.fst).Nodup)
    (hrows : ∀ found ∈ rows, mail.messagesUsers.get found.1 = some found.2 ∧ found.2.user = user) :
    (rows.forM fun found => do
      modify fun mail => mail.setMessagesUsers (mail.messagesUsers.modify found.1 MessagesUser.setRecipientDeleted)
      tagEntry user found.2 : MailAct Unit).run mail =
      .ok ⟨⟩ (mail.setMessagesUsers ((rows.map Prod.fst).foldl (fun t place => t.modify place discard) mail.messagesUsers)) := by
  induction rows generalizing mail with
  | nil => rfl
  | cons found rows ih =>
      obtain ⟨hnot, hnodup⟩ := List.nodup_cons.mp hnodup
      obtain ⟨hget, rfl⟩ := hrows found List.mem_cons_self
      obtain ⟨message, hmessage⟩ := Option.isSome_iff_exists.mp (haddressed.known found.1 found.2 hget)
      have hbody : (do
          modify fun mail => mail.setMessagesUsers (mail.messagesUsers.modify found.1 MessagesUser.setRecipientDeleted)
          tagEntry found.2.user found.2 : MailAct Unit).run mail =
          .ok ⟨⟩ (mail.setMessagesUsers (mail.messagesUsers.modify found.1 discard)) := by
        rw [← discard_run haddressed hget hmessage, run_bind_modify, run_bind_modify]
        exact tagEntry_run hmessage rfl
      refine (run_bind_of_ok hbody _).trans (ih (haddressed.modify found.1 fun _ => ⟨rfl, rfl⟩) hnodup ?_)
      intro other hother
      obtain ⟨hget', huser'⟩ := hrows other (List.mem_cons_of_mem found hother)
      refine ⟨?_, huser'⟩
      have hne : other.1 ≠ found.1 := fun heq => hnot (heq ▸ List.mem_map_of_mem hother)
      exact (Table.get_modify_of_ne _ _ hne).trans hget'

theorem flushInbox_after (haddressed : mail.Addressed) (user : UserId) :
    after ((flushInbox user).run mail) = mail.changeEntries (fun row => row.user = user) discard := by
  let rows := mail.messagesUsers.rows.filter fun found => found.2.user = user
  have hrows : ∀ found ∈ rows, mail.messagesUsers.get found.1 = some found.2 ∧ found.2.user = user := by
    intro found hfound
    obtain ⟨hmem, huser⟩ := List.mem_filter.mp hfound
    exact ⟨Table.mem_rows.mp hmem, of_decide_eq_true huser⟩
  have hnodup : (rows.map Prod.fst).Nodup := (mail.messagesUsers.rows_nodup).sublist (List.filter_sublist.map Prod.fst)
  have hrun : (flushInbox user).run mail = _ := discardAll_run haddressed hnodup hrows
  rw [hrun, after_ok, Table.foldl_modify hnodup, changeEntries]
  refine congrArg mail.setMessagesUsers (Table.mapEach_congr fun place row hget => if_congr ?_ rfl rfl)
  constructor
  · intro hmem
    obtain ⟨found, hfound, rfl⟩ := List.mem_map.mp hmem
    obtain ⟨hfound', huser⟩ := hrows found hfound
    obtain rfl := Option.some.inj (hget.symm.trans hfound')
    exact decide_eq_true huser
  · intro huser
    exact List.mem_map.mpr ⟨(place, row), List.mem_filter.mpr ⟨Table.mem_rows.mpr hget, huser⟩, rfl⟩

theorem withdrawAll_run (ids : List MessageId) (mail : Mail) :
    (ids.forM fun id => modify fun mail => mail.setMessages (mail.messages.modify id Message.setSenderDeleted)
      : MailAct Unit).run mail =
      .ok ⟨⟩ (mail.setMessages (ids.foldl (fun t id => t.modify id Message.setSenderDeleted) mail.messages)) := by
  induction ids generalizing mail with
  | nil => rfl
  | cons id ids ih => exact ih (mail.setMessages (mail.messages.modify id Message.setSenderDeleted))

theorem flushOutbox_after (user : UserId) (mail : Mail) :
    after ((flushOutbox user).run mail) = mail.withdrawSent user fun _ => true := by
  have hrun : (flushOutbox user).run mail = _ :=
    withdrawAll_run (mail.messages.select fun message => message.sender = some user) mail
  rw [hrun, after_ok, Table.foldl_modify (Table.nodup_select _ _), withdrawSent]
  refine congrArg mail.setMessages (Table.mapEach_congr fun id message hget => if_congr ?_ rfl rfl)
  rw [Table.mem_select]
  constructor
  · rintro ⟨found, hfound, hsent⟩
    obtain rfl := Option.some.inj (hget.symm.trans hfound)
    exact ⟨of_decide_eq_true hsent, rfl⟩
  · rintro ⟨hsent, -⟩
    exact ⟨message, hget, decide_eq_true hsent⟩

end MessagesController

end Mmog

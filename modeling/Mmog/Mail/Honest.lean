import Mmog.Mail.Turns

/-!
# Messages over whole runs

The number of unread messages is that of the messages that are listed as
unread.  A mark on a message says exactly that its user asked for it, and who
can read a message is settled when it is sent.
-/

namespace Mmog

open Ruby Action Mail

namespace Mail

variable {start mail final : Mail} {events : List MailEvent} {user : UserId} {id : MessageId} {place : ℕ}
  {row : MessagesUser} {message : Message}

/-! ## Runs -/

theorem step_tidy {event : MailEvent} {next : Mail} (htidy : mail.Tidy) (hstep : event.step mail = some next) :
    next.Tidy := by
  cases hstep
  exact (Turn.of_event htidy.toAddressed event).tidy htidy

theorem run_tidy (hfresh : start.Fresh) (hrun : run MailEvent.step start events = some final) : final.Tidy :=
  run_invariant (fun _ _ _ htidy hstep => step_tidy htidy hstep) hfresh.tidy hrun

/-- Entries and messages stay, whatever is marked on them. -/
theorem run_entry (htidy : mail.Tidy) (hget : mail.messagesUsers.get place = some row)
    (hrun : run MailEvent.step mail events = some final) :
    ∃ new, final.messagesUsers.get place = some new ∧ new.user = row.user ∧ new.message = row.message := by
  have hsteps : ∀ (mail : Mail) event (next : Mail),
      (mail.Tidy ∧ ∃ new, mail.messagesUsers.get place = some new ∧ new.user = row.user ∧ new.message = row.message) →
        MailEvent.step mail event = some next →
          next.Tidy ∧ ∃ new, next.messagesUsers.get place = some new ∧ new.user = row.user ∧ new.message = row.message := by
    rintro mail event next ⟨htidy, new, hnew, hsame⟩ hstep
    have hnext := step_tidy htidy hstep
    cases hstep
    exact ⟨hnext, _, (Turn.of_event htidy.toAddressed event).get_entry hnew, hsame⟩
  exact (run_invariant hsteps ⟨htidy, row, hget, rfl, rfl⟩ hrun).2

theorem run_message (htidy : mail.Tidy) (hget : mail.messages.get id = some message)
    (hrun : run MailEvent.step mail events = some final) :
    ∃ new, final.messages.get id = some new ∧ new.sender = message.sender := by
  have hsteps : ∀ (mail : Mail) event (next : Mail),
      (mail.Tidy ∧ ∃ new, mail.messages.get id = some new ∧ new.sender = message.sender) →
        MailEvent.step mail event = some next →
          next.Tidy ∧ ∃ new, next.messages.get id = some new ∧ new.sender = message.sender := by
    rintro mail event next ⟨htidy, new, hnew, hsame⟩ hstep
    have hnext := step_tidy htidy hstep
    cases hstep
    exact ⟨hnext, _, (Turn.of_event htidy.toAddressed event).get_message hnew, hsame⟩
  exact (run_invariant hsteps ⟨htidy, message, hget, rfl⟩ hrun).2

/-! ## The number of unread messages -/

/-- The number beside the link to the messages is that of the messages listed as unread. -/
theorem unread_messages_listed (hfresh : start.Fresh) (hrun : run MailEvent.step start events = some final)
    (user : UserId) : final.unreadMessages user = (final.inbox user).countP fun row => !row.read := by
  rw [unreadMessages, inbox, List.countP_filter]
  refine List.countP_congr fun row hrow => ?_
  obtain ⟨-, place, hget⟩ := Table.mem_having.mp hrow
  have hseen := (run_tidy hfresh hrun).seen place row hget
  cases hread : row.read with
  | true => simp
  | false =>
      cases hdeleted : row.recipientDeleted with
      | true => exact absurd ((hseen hdeleted).symm.trans hread) Bool.noConfusion
      | false => simp

def sampleMail : Mail := ⟨Community.sampleCommunity, Table.empty, Table.empty⟩

theorem sampleMail_fresh : sampleMail.Fresh := ⟨fun _ => rfl, fun _ => rfl⟩

/-- The second user reads one of two messages from the first, empties his inbox, and hears from the game; the first
one deletes what he sent first. -/
def letters : List MailEvent :=
  [.request (some 1) (.create (some 2) (some "Hallo") (some "")), .request (some 1) (.create (some 2) (some "Hallo?") none),
    .request (some 2) (.showMessage 2), .request (some 2) .flushInbox, .request (some 1) (.destroy 1),
    .systemNotify 2 "Forschung" "Laser" "Stufe 1"]

def lettersMail : Mail := (run MailEvent.step sampleMail letters).get (by decide)

theorem unread_messages_listed_letters :
    lettersMail.unreadMessages 2 = 1 ∧ (lettersMail.inbox 2).countP (fun row => !row.read) = 1 := by
  have hrun : run MailEvent.step sampleMail letters = some lettersMail := (Option.some_get _).symm
  have hlisted := unread_messages_listed sampleMail_fresh hrun 2
  have hone : lettersMail.unreadMessages 2 = 1 := by decide
  exact ⟨hone, hlisted.symm.trans hone⟩

/-! ## Marks -/

theorem step_entry_marked {marked : MessagesUser → Bool} {asks : MessageId → MailRequest → Bool}
    (hmarked : ∀ (mail : Mail) (event : MailEvent) row, marked (event.stamp mail row) =
      (marked row || event.isAsked mail row.user (asks row.message)))
    (hunmarked : ∀ user message, marked { user, message } = false) {event : MailEvent} {next : Mail} (htidy : mail.Tidy)
    (hstep : event.step mail = some next) :
    (next.messagesUsers.get place).any marked = true ↔ (mail.messagesUsers.get place).any marked = true ∨
      (mail.messagesUsers.get place).any (fun row => event.isAsked mail row.user (asks row.message)) = true := by
  cases hstep
  have hturn := Turn.of_event htidy.toAddressed event
  cases hold : mail.messagesUsers.get place with
  | some old => rw [hturn.get_entry hold, Option.any_some, Option.any_some, Option.any_some, hmarked, Bool.or_eq_true]
  | none =>
      rw [Option.any_none, Option.any_none, or_self_iff]
      cases hnew : (event.next mail).messagesUsers.get place with
      | none => rw [Option.any_none]
      | some new =>
          obtain ⟨old, hold', -⟩ | ⟨-, hrow⟩ := hturn.origin hnew
          · exact absurd (hold'.symm.trans hold) (Option.some_ne_none old)
          · rw [Option.any_some, hrow, hunmarked]

/-- A mark of an entry is there exactly if some event asked for it when the entry was there. -/
theorem run_entry_marked {marked : MessagesUser → Bool} {asks : MessageId → MailRequest → Bool}
    (hmarked : ∀ (mail : Mail) (event : MailEvent) row, marked (event.stamp mail row) =
      (marked row || event.isAsked mail row.user (asks row.message)))
    (hunmarked : ∀ user message, marked { user, message } = false)
    (hfresh : start.Fresh) (hrun : run MailEvent.step start events = some final)
    (hget : final.messagesUsers.get place = some row) :
    marked row = true ↔ During MailEvent.step (fun mail event => (mail.messagesUsers.get place).isSome = true ∧
      event.isAsked mail row.user (asks row.message) = true) start events := by
  have hsteps : ∀ (mail : Mail) (event : MailEvent) (next : Mail), mail.Tidy → MailEvent.step mail event = some next →
      next.Tidy ∧ ((next.messagesUsers.get place).any marked = true ↔ (mail.messagesUsers.get place).any marked = true ∨
        (mail.messagesUsers.get place).any (fun row => event.isAsked mail row.user (asks row.message)) = true) :=
    fun mail event next htidy hstep => ⟨step_tidy htidy hstep, step_entry_marked hmarked hunmarked htidy hstep⟩
  have hflag := run_marked hsteps hfresh.tidy hrun
  rw [hget, Option.any_some, hfresh.messagesUsers place, Option.any_none] at hflag
  rw [hflag, or_iff_right Bool.false_ne_true]
  refine During.congr fun past event future mid hsplit hmid => ?_
  subst hsplit
  rw [run_append, hmid, Option.bind_some] at hrun
  cases hold : mid.messagesUsers.get place with
  | none => simp
  | some old =>
      obtain ⟨new, hnew, huser, hmessage⟩ := run_entry (run_tidy hfresh hmid) hold hrun
      obtain rfl := Option.some.inj (hget.symm.trans hnew)
      rw [Option.any_some, huser, hmessage, Option.isSome_some, and_iff_right rfl]

theorem step_withdrawn {event : MailEvent} {next : Mail} (htidy : mail.Tidy) (hstep : event.step mail = some next) :
    (next.messages.get id).any Message.senderDeleted = true ↔ (mail.messages.get id).any Message.senderDeleted = true ∨
      (mail.messages.get id).any (fun message =>
        message.sender.any fun user => event.isAsked mail user (MailRequest.withdraws id)) = true := by
  cases hstep
  have hturn := Turn.of_event htidy.toAddressed event
  cases hold : mail.messages.get id with
  | some old =>
      rw [hturn.get_message hold, Option.any_some, Option.any_some, Option.any_some]
      exact Bool.or_eq_true_iff
  | none =>
      rw [Option.any_none, Option.any_none, or_self_iff]
      cases hnew : (event.next mail).messages.get id with
      | none => rw [Option.any_none]
      | some new =>
          obtain ⟨old, hold', -⟩ | ⟨-, hunmarked⟩ := hturn.origin_message hnew
          · exact absurd (hold'.symm.trans hold) (Option.some_ne_none old)
          · rw [Option.any_some, hunmarked]

/-- A message is withdrawn exactly if some event asked its sender's messages for it when it was there. -/
theorem run_withdrawn (hfresh : start.Fresh) (hrun : run MailEvent.step start events = some final)
    (hget : final.messages.get id = some message) :
    message.senderDeleted = true ↔ During MailEvent.step (fun mail event => (mail.messages.get id).isSome = true ∧
      ∃ user ∈ message.sender, event.isAsked mail user (MailRequest.withdraws id) = true) start events := by
  have hsteps : ∀ (mail : Mail) (event : MailEvent) (next : Mail), mail.Tidy → MailEvent.step mail event = some next →
      next.Tidy ∧ ((next.messages.get id).any Message.senderDeleted = true ↔
        (mail.messages.get id).any Message.senderDeleted = true ∨ (mail.messages.get id).any (fun message =>
          message.sender.any fun user => event.isAsked mail user (MailRequest.withdraws id)) = true) :=
    fun mail event next htidy hstep => ⟨step_tidy htidy hstep, step_withdrawn htidy hstep⟩
  have hflag := run_marked hsteps hfresh.tidy hrun
  rw [hget, Option.any_some, hfresh.messages id, Option.any_none] at hflag
  rw [hflag, or_iff_right Bool.false_ne_true]
  refine During.congr fun past event future mid hsplit hmid => ?_
  subst hsplit
  rw [run_append, hmid, Option.bind_some] at hrun
  cases hold : mid.messages.get id with
  | none => simp
  | some old =>
      obtain ⟨new, hnew, hsender⟩ := run_message (run_tidy hfresh hmid) hold hrun
      obtain rfl := Option.some.inj (hget.symm.trans hnew)
      rw [Option.any_some, hsender, Option.isSome_some, and_iff_right rfl, Option.any_eq_true]
      rfl

/-- What the marks on messages say. -/
structure Honest (start final : Mail) (events : List MailEvent) : Prop where
  read : ∀ place row, final.messagesUsers.get place = some row → (row.read = true ↔
    During MailEvent.step (fun mail event => (mail.messagesUsers.get place).isSome = true ∧
      event.isAsked mail row.user (MailRequest.reads row.message) = true) start events)
  recipientDeleted : ∀ place row, final.messagesUsers.get place = some row → (row.recipientDeleted = true ↔
    During MailEvent.step (fun mail event => (mail.messagesUsers.get place).isSome = true ∧
      event.isAsked mail row.user (MailRequest.discards row.message) = true) start events)
  senderDeleted : ∀ id message, final.messages.get id = some message → (message.senderDeleted = true ↔
    During MailEvent.step (fun mail event => (mail.messages.get id).isSome = true ∧
      ∃ user ∈ message.sender, event.isAsked mail user (MailRequest.withdraws id) = true) start events)

/-- A message is read exactly if its recipient has shown it, deleted it or emptied his inbox since he received it,
deleted exactly if he has deleted it or emptied his inbox, and withdrawn exactly if its sender has deleted it or
emptied his outbox. -/
theorem marks_are_asked_for (hfresh : start.Fresh) (hrun : run MailEvent.step start events = some final) :
    Honest start final events where
  read _ _ hget := run_entry_marked (fun _ _ _ => rfl) (fun _ _ => rfl) hfresh hrun hget
  recipientDeleted _ _ hget := run_entry_marked (fun _ _ _ => rfl) (fun _ _ => rfl) hfresh hrun hget
  senderDeleted _ _ hget := run_withdrawn hfresh hrun hget

theorem marks_are_asked_for_letters : lettersMail.messages.nextId = 4 ∧ Honest sampleMail lettersMail letters :=
  ⟨by decide, marks_are_asked_for sampleMail_fresh (Option.some_get _).symm⟩

/-! ## Readers -/

/-- The user is a recipient of the message. -/
def Receives (mail : Mail) (user : UserId) (id : MessageId) : Prop :=
  ∃ place row, mail.messagesUsers.get place = some row ∧ row.user = user ∧ row.message = id

theorem isReadable_iff (huser : mail.isUser user = true) :
    mail.isReadable id message (some user) = true ↔ message.sender = some user ∨ mail.Receives user id := by
  rw [isReadable, Option.any_some, Bool.or_eq_true, decide_eq_true_eq, senderOf_eq_some, and_iff_left huser, isRecipient,
    huser, Bool.and_true, isSome_entry]
  rfl

/-- A message that was sent gets no new recipients, and loses none. -/
theorem run_receives (htidy : mail.Tidy) (hget : mail.messages.get id = some message)
    (hrun : run MailEvent.step mail events = some final) (user : UserId) :
    final.Receives user id ↔ mail.Receives user id := by
  have hsteps : ∀ (state : Mail) event (next : Mail), (state.Tidy ∧ (state.messages.get id).isSome = true ∧
      (state.Receives user id ↔ mail.Receives user id)) → MailEvent.step state event = some next →
        next.Tidy ∧ (next.messages.get id).isSome = true ∧ (next.Receives user id ↔ mail.Receives user id) := by
    rintro state event next ⟨htidy, hsome, hsame⟩ hstep
    have hnext := step_tidy htidy hstep
    obtain ⟨found, hfound⟩ := Option.isSome_iff_exists.mp hsome
    cases hstep
    have hturn := Turn.of_event htidy.toAddressed event
    refine ⟨hnext, by rw [hturn.get_message hfound]; rfl, Iff.trans ⟨?_, ?_⟩ hsame⟩
    · rintro ⟨place, row, hrow, huser, hmessage⟩
      obtain ⟨old, hold, rfl⟩ | ⟨-, hnew⟩ := hturn.origin hrow
      · exact ⟨place, old, hold, huser, hmessage⟩
      · rw [hnew] at hmessage
        exact absurd hmessage.symm (Table.ne_nextId hfound)
    · rintro ⟨place, row, hrow, hrecipient⟩
      exact ⟨place, _, hturn.get_entry hrow, hrecipient⟩
  exact (run_invariant hsteps ⟨htidy, by rw [hget]; rfl, Iff.rfl⟩ hrun).2.2

theorem run_accounts (htidy : mail.Tidy) (hrun : run MailEvent.step mail events = some final) :
    AccountsGrow mail.community.users final.community.users := by
  have hsteps : ∀ (state : Mail) event (next : Mail),
      (state.Tidy ∧ AccountsGrow mail.community.users state.community.users) → MailEvent.step state event = some next →
        next.Tidy ∧ AccountsGrow mail.community.users next.community.users := by
    rintro state event next ⟨htidy, hgrow⟩ hstep
    have hnext := step_tidy htidy hstep
    cases hstep
    exact ⟨hnext, hgrow.trans (Turn.of_event htidy.toAddressed event).accounts⟩
  exact (run_invariant hsteps ⟨htidy, AccountsGrow.refl _⟩ hrun).2

/-- A user who has an account can read a message if he could when there was the message already. -/
theorem run_isReadable (htidy : mail.Tidy) (hget : mail.messages.get id = some message)
    (hrun : run MailEvent.step mail events = some final) :
    ∃ new, final.messages.get id = some new ∧ ∀ reader, final.isUser reader = true →
      (final.isReadable id new (some reader) = true ↔
        mail.isUser reader = true ∧ (message.sender = some reader ∨ mail.Receives reader id)) := by
  obtain ⟨new, hnew, hsender⟩ := run_message htidy hget hrun
  refine ⟨new, hnew, fun reader hreader => ?_⟩
  rw [isReadable_iff hreader, hsender, run_receives htidy hget hrun]
  refine (and_iff_right_of_imp fun hreads => (run_accounts htidy hrun).isSome ?_ hreader).symm
  -- the id of somebody who came later was not given yet
  rcases hreads with hsent | ⟨place, row, hrow, rfl, -⟩
  · exact htidy.written id message hget reader hsent
  · exact htidy.registered place row hrow

/-- Whoever has an account later can read a message exactly if he could when it was there already. -/
theorem readers_stay (hfresh : start.Fresh) {past future : List MailEvent}
    (hpast : run MailEvent.step start past = some mail) (hget : mail.messages.get id = some message)
    (hfuture : run MailEvent.step mail future = some final) :
    ∃ new, final.messages.get id = some new ∧ ∀ reader, final.isUser reader = true →
      (final.isReadable id new (some reader) = true ↔ mail.isReadable id message (some reader) = true) := by
  obtain ⟨new, hnew, hreads⟩ := run_isReadable (run_tidy hfresh hpast) hget hfuture
  refine ⟨new, hnew, fun reader hreader => (hreads reader hreader).trans ?_⟩
  by_cases huser : mail.isUser reader = true
  · rw [isReadable_iff huser, and_iff_right huser]
  · refine iff_of_false (fun hboth => huser hboth.1) fun hreadable => huser ?_
    rw [isReadable, Option.any_some, Bool.or_eq_true, decide_eq_true_eq, senderOf_eq_some, isRecipient,
      Bool.and_eq_true] at hreadable
    exact hreadable.elim And.right And.right

/-- The mail when the two messages of the first user are sent, and when the rest has happened. -/
def sentMail : Mail := (run MailEvent.step sampleMail (letters.take 2)).get (by decide)

def answeredMail : Mail := (run MailEvent.step sentMail (letters.drop 2)).get (by decide)

theorem readers_stay_letters : ∃ new, answeredMail.messages.get 1 = some new ∧
    ∀ reader, answeredMail.isUser reader = true → (answeredMail.isReadable 1 new (some reader) = true ↔
      sentMail.isReadable 1 ⟨some 1, some "Hallo", some "", false⟩ (some reader) = true) :=
  readers_stay sampleMail_fresh (Option.some_get _).symm (by decide) (Option.some_get _).symm

/-- The recipients of a new message are those it is posted to. -/
theorem receives_post (htidy : mail.Tidy) (message : Message) (recipients : List UserId) (reader : UserId) :
    (mail.post message recipients).Receives reader mail.messages.nextId ↔ reader ∈ recipients := by
  constructor
  · rintro ⟨place, row, hget, rfl, hmessage⟩
    obtain hold | ⟨index, hrow, -⟩ := Table.get_createAll_eq_some.mp hget
    · obtain ⟨sent, hsent⟩ := Option.isSome_iff_exists.mp (htidy.known place row hold)
      exact absurd hmessage (Table.ne_nextId hsent)
    · obtain ⟨user, huser, rfl⟩ := List.mem_map.mp (List.mem_of_getElem? hrow)
      exact huser
  · intro hmem
    obtain ⟨index, hindex⟩ := List.mem_iff_getElem?.mp hmem
    refine ⟨mail.messagesUsers.nextId + index, { user := reader, message := mail.messages.nextId },
      Table.get_createAll_eq_some.mpr (.inr ⟨index, ?_, rfl⟩), rfl, rfl⟩
    rw [List.getElem?_map, hindex, Option.map_some]

/-- Whatever happens later, a mass mail can be read by those who were members of the alliance when it was sent. -/
theorem mass_mail_reaches_members (hfresh : start.Fresh) {past future : List MailEvent} {alliance : AllianceId}
    {subject body : String} (hpast : run MailEvent.step start past = some mail) (huser : mail.isUser user = true)
    (hpermission : mail.community.permission? alliance user .massmail = true)
    (hfuture : run MailEvent.step mail (.request (some user) (.sendMail alliance (some subject) (some body)) :: future) =
      some final) :
    ∃ new, final.messages.get mail.messages.nextId = some new ∧ ∀ reader, final.isUser reader = true →
      (final.isReadable mail.messages.nextId new (some reader) = true ↔
        (mail.community.users.get reader).any (Community.inAlliance alliance) = true) := by
  have htidy := run_tidy hfresh hpast
  obtain ⟨sent, hsent, hrest⟩ := run_cons hfuture
  have hsentTidy := step_tidy htidy hsent
  obtain rfl : _ = sent := Option.some.inj hsent
  have hpost : (MailEvent.request (some user) (.sendMail alliance (some subject) (some body))).next mail =
      mail.post { sender := some user, subject := some ("[Allianznachricht] " ++ subject), body := some body }
        (mail.others alliance user) := by
    rw [MailEvent.next, if_pos huser]
    exact (sendMail_after mail user alliance (some subject) (some body)).trans (if_pos ⟨hpermission, rfl, rfl⟩)
  rw [hpost] at hrest hsentTidy
  obtain ⟨new, hnew, hreads⟩ := run_isReadable hsentTidy (Table.get_create_self mail.messages _) hrest
  refine ⟨new, hnew, fun reader hreader => (hreads reader hreader).trans ?_⟩
  rw [receives_post htidy, mem_others]
  obtain ⟨-, -, -, halliance, -⟩ := Community.permission?_eq_true.mp hpermission
  obtain ⟨member, hmember, hin, -⟩ := Community.allianceOf_eq_some.mp halliance
  have hself : (mail.community.users.get user).any (Community.inAlliance alliance) = true := by
    rw [hmember, Option.any_some]
    exact decide_eq_true hin
  constructor
  · rintro ⟨-, hsender | ⟨hother, -⟩⟩
    · obtain rfl := Option.some.inj hsender
      exact hself
    · exact hother
  · intro hother
    obtain ⟨found, hfound, -⟩ := (Option.any_eq_true _ _).mp hother
    refine ⟨Option.isSome_iff_exists.mpr ⟨found, hfound⟩, ?_⟩
    by_cases heq : reader = user
    · exact .inl (congrArg some heq.symm)
    · exact .inr ⟨hother, heq⟩

/-- The first user founds an alliance, which the second one joins. -/
def alliedMail : Mail :=
  (run MailEvent.step sampleMail [.community (.request (some 1) (.createAlliance (some "Orion") none)),
    .community (.call (.addUser 1 2))]).get (by decide)

/-- The second user leaves the alliance after a mass mail. -/
def leftMail : Mail :=
  (run MailEvent.step alliedMail [.request (some 1) (.sendMail 1 (some "Angriff") (some "")),
    .community (.request (some 2) (.leave 1))]).get (by decide)

theorem mass_mail_reaches_members_left : (leftMail.community.users.get 2).any (·.alliance = none) = true ∧
    ∃ new, leftMail.messages.get 1 = some new ∧ ∀ reader, leftMail.isUser reader = true →
      (leftMail.isReadable 1 new (some reader) = true ↔
        (alliedMail.community.users.get reader).any (Community.inAlliance 1) = true) := by
  refine ⟨by decide +kernel, ?_⟩
  exact mass_mail_reaches_members sampleMail_fresh (Option.some_get _).symm (by decide +kernel) (by decide +kernel)
    (Option.some_get _).symm

end Mail

end Mmog

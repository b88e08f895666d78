import Mmog.Model.CommunityRequests

/-!
# Messages

Users write to each other and to the members of their alliance, and the game
writes to users.  A message is one row, with a further row for each recipient,
which says whether he has read it and whether he has deleted it.
-/

namespace Mmog

open Ruby

abbrev MessageId := ℕ

structure Message where
  /-- None for a message of the game. -/
  sender : Option UserId
  subject : Option String
  body : Option String
  senderDeleted : Bool := false
  deriving DecidableEq

structure MessagesUser where
  user : UserId
  message : MessageId
  read : Bool := false
  recipientDeleted : Bool := false
  deriving DecidableEq

structure Mail where
  community : Community
  messages : Table Message
  messagesUsers : Table MessagesUser

abbrev MailAct := Action Err Mail

namespace Mail

def isUser (mail : Mail) (user : UserId) : Bool := (mail.community.users.get user).isSome

/-- `message.sender`, which is nil when the user is gone. -/
def senderOf (mail : Mail) (message : Message) : Option UserId := message.sender.filter mail.isUser

/-- The first entry of a recipient of a message. -/
def entry (mail : Mail) (user : UserId) (id : MessageId) : Option ℕ :=
  mail.messagesUsers.first fun row => row.user = user ∧ row.message = id

/-- `recipients.exists?(user)`, which joins the entries with the users. -/
def isRecipient (mail : Mail) (user : UserId) (id : MessageId) : Bool :=
  (mail.entry user id).isSome && mail.isUser user

/-- `message.is_readable?(user)`. -/
def isReadable (mail : Mail) (id : MessageId) (message : Message) (user : Option UserId) : Bool :=
  user.any fun user => mail.senderOf message = some user || mail.isRecipient user id

/-- `user.messages`, each with the columns of its entry. -/
def messagesOf (mail : Mail) (user : UserId) : List MessagesUser :=
  mail.messagesUsers.having fun row => row.user = user ∧ (mail.messages.get row.message).isSome

/-- `user.unread_messages`. -/
def unreadMessages (mail : Mail) (user : UserId) : ℕ :=
  (mail.messagesOf user).countP fun row => !row.read

/-- What `index` lists of the messages to a user. -/
def inbox (mail : Mail) (user : UserId) : List MessagesUser :=
  (mail.messagesOf user).filter fun row => !row.recipientDeleted

def setMessages (mail : Mail) (messages : Table Message) : Mail := { mail with messages }

def setMessagesUsers (mail : Mail) (messagesUsers : Table MessagesUser) : Mail :=
  { mail with messagesUsers }

/-- A new message, and an entry for each of its recipients. -/
def post (mail : Mail) (message : Message) (recipients : List UserId) : Mail :=
  (mail.setMessages (mail.messages.create message)).setMessagesUsers
    (mail.messagesUsers.createAll (recipients.map fun user => { user, message := mail.messages.nextId }))

end Mail

open Mail

namespace MessagesUser

def setRead (row : MessagesUser) : MessagesUser := { row with read := true }

def setRecipientDeleted (row : MessagesUser) : MessagesUser := { row with recipientDeleted := true }

end MessagesUser

namespace Message

def setSenderDeleted (message : Message) : Message := { message with senderDeleted := true }

def find (id : MessageId) : MailAct Message := do
  match (← get).messages.get id with
  | none => throw .recordNotFound
  | some message => return message

/-- `tag_msg_as_seen!`. -/
def tagMsgAsSeen (id : MessageId) (self : Message) (user : UserId) : MailAct Unit := do
  let mail ← get
  if mail.senderOf self ≠ some user then
    match mail.entry user id with
    | none => throw .noMethodError
    | some entry => modify fun mail =>
        mail.setMessagesUsers (mail.messagesUsers.modify entry MessagesUser.setRead)

end Message

/-! ## Sending -/

/-- `user.system_notify`. -/
def systemNotify (user : UserId) (head subject message : String) : MailAct Unit := do
  if (← get).isUser user then
    modify fun mail => mail.post
      { sender := none, subject := some ("[" ++ head ++ "] " ++ subject), body := some message } [user]

/-- `users.where.not(:id => user)` of an alliance. -/
def Mail.others (mail : Mail) (alliance : AllianceId) (user : UserId) : List UserId :=
  (mail.community.users.select (Community.inAlliance alliance)).filter (· ≠ user)

/-- `send_mass_mail`; only the body can be nil here. -/
def Alliance.sendMassMail (self : AllianceId) (user : UserId) (subject : String) (body : Option String) :
    MailAct Bool := do
  match body with
  | none => return false
  | some body =>
      match (← get).community.rankOf user with
      | none => throw .noMethodError
      | some (_, rank) =>
          if rank.canMassmail then
            modify fun mail => mail.post { sender := some user, subject := some subject, body := some body }
              (mail.others self user)
            return true
          else return false

/-- `AlliancesController#send_mail`; no subject cannot be put behind the prefix. -/
def AlliancesController.sendMail (currentUser : UserId) (alliance : AllianceId) (subject body : Option String) :
    MailAct Unit := do
  let mail ← get
  match mail.community.alliances.get alliance, subject with
  | none, _ => throw .recordNotFound
  | some _, none => throw .typeError
  | some _, some subject =>
      if mail.community.permission? alliance currentUser .massmail then
        let _ ← Alliance.sendMassMail alliance currentUser ("[Allianznachricht] " ++ subject) body

namespace MessagesController

/-- `recipient` is the user with the name that was given. -/
def create (currentUser : UserId) (recipient : Option UserId) (subject body : Option String) : MailAct Unit := do
  match recipient.filter (← get).isUser with
  | none => return
  | some recipient =>
      if currentUser ≠ recipient then
        modify fun mail => mail.post { sender := some currentUser, subject, body } [recipient]

/-! ## Reading and deleting -/

def showMessage (currentUser : UserId) (id : MessageId) : MailAct Unit := do
  let message ← Message.find id
  let mail ← get
  if mail.isReadable id message (some currentUser) then
    if mail.senderOf message ≠ some currentUser then
      message.tagMsgAsSeen id currentUser

def destroy (currentUser : UserId) (id : MessageId) : MailAct Unit := do
  let message ← Message.find id
  let mail ← get
  if mail.isRecipient currentUser id then
    match mail.entry currentUser id with
    | none => throw .noMethodError
    | some entry =>
        modify fun mail => mail.setMessagesUsers (mail.messagesUsers.modify entry MessagesUser.setRecipientDeleted)
        message.tagMsgAsSeen id currentUser
  else if mail.senderOf message = some currentUser then
    modify fun mail => mail.setMessages (mail.messages.modify id Message.setSenderDeleted)

def flushOutbox (currentUser : UserId) : MailAct Unit := do
  ((← get).messages.select fun message => message.sender = some currentUser).forM fun id =>
    modify fun mail => mail.setMessages (mail.messages.modify id Message.setSenderDeleted)

/-- The second half of `flush_inbox` for one entry. -/
def tagEntry (currentUser : UserId) (row : MessagesUser) : MailAct Unit := do
  match (← get).messages.get row.message with
  | none => throw .noMethodError
  | some message => message.tagMsgAsSeen row.message currentUser

def flushInbox (currentUser : UserId) : MailAct Unit := do
  let rows := (← get).messagesUsers.rows.filter fun (_, row) => row.user = currentUser
  rows.forM fun (id, row) => do
    modify fun mail => mail.setMessagesUsers (mail.messagesUsers.modify id MessagesUser.setRecipientDeleted)
    tagEntry currentUser row

end MessagesController

/-! ## Events -/

/-- A request of the user of a session. -/
inductive MailRequest where
  | create (recipient : Option UserId) (subject body : Option String)
  | sendMail (alliance : AllianceId) (subject body : Option String)
  | showMessage (id : MessageId)
  | destroy (id : MessageId)
  | flushInbox
  | flushOutbox
  deriving DecidableEq

def MailRequest.perform (currentUser : UserId) : MailRequest → MailAct Unit
  | create recipient subject body => MessagesController.create currentUser recipient subject body
  | sendMail alliance subject body => AlliancesController.sendMail currentUser alliance subject body
  | showMessage id => MessagesController.showMessage currentUser id
  | destroy id => MessagesController.destroy currentUser id
  | flushInbox => MessagesController.flushInbox currentUser
  | flushOutbox => MessagesController.flushOutbox currentUser

inductive MailEvent where
  /-- Anything that alliances, requests and registrations do; what it tells users is an event of its own. -/
  | community (event : CommunityEvent)
  /-- A user deletes his account. -/
  | cancelAccount (user : UserId)
  | systemNotify (user : UserId) (head subject message : String)
  | request (session : Option UserId) (asked : MailRequest)

namespace MailEvent

/-- What an event leaves behind, whether it returns or raises; a request without a user is sent away. -/
def next (mail : Mail) : MailEvent → Mail
  | .community event => { mail with community := Action.after (event.perform.run mail.community) }
  | .cancelAccount user => { mail with
      community := { mail.community with users := mail.community.users.destroy user } }
  | .systemNotify user head subject message =>
      Action.after ((Mmog.systemNotify user head subject message).run mail)
  | .request (some user) asked => if mail.isUser user then Action.after ((asked.perform user).run mail) else mail
  | .request none _ => mail

def step (mail : Mail) (event : MailEvent) : Option Mail := some (event.next mail)

end MailEvent

/-- Nobody has written anything yet. -/
structure Mail.Fresh (mail : Mail) : Prop where
  messages : ∀ id, mail.messages.get id = none
  messagesUsers : ∀ id, mail.messagesUsers.get id = none

end Mmog

import YoutubeFactory.Lib.Batches
import YoutubeFactory.Lib.Run
import YoutubeFactory.Repositories.Paging

/-!
# Notifications

`Notification` of `app/models/notification.py`, `NotificationRepository` of
`app/repositories/notification.py`, and `NotificationService` of `app/services/notification.py`,
less the preferences and what creates a notification.

`mark_all_read` reads the list of what is unread with a limit of 1000, and marks what it has read.
`unread_count` counts without a limit.  So a user with more than 1000 unread notifications keeps
some (`mark_all_read_iff`).
-/

namespace YoutubeFactory.Notifications

open Repositories (Database Table newestFirst)

abbrev Id := Nat

/-- Seconds since the epoch, UTC. -/
abbrev DateTime := Int

/-! ## The table -/

inductive NotificationStatus where
  | pending | sent | read | failed
deriving DecidableEq, Repr

/-- `content` is the columns that nothing here reads: the organization, the channel, the category,
the texts, the link, the payload and the time of sending. -/
structure Notification (Content : Type) where
  id : Id
  userId : Id
  status : NotificationStatus
  readAt : Option DateTime
  createdAt : DateTime
  deletedAt : Option DateTime
  content : Content

/-- The table, with its primary key. -/
structure NotificationDb (Content : Type) where
  notifications : List (Notification Content)
  nodup : (notifications.map Notification.id).Nodup

inductive NotificationError where
  | notFound (message : String)
deriving DecidableEq, Repr

variable {Content : Type}

/-- The columns that marking a notification as read writes. -/
def Notification.markRead (now : DateTime) (notification : Notification Content) :
    Notification Content :=
  { notification with readAt := some now, status := .read }

namespace NotificationDb

variable (db : NotificationDb Content)

def table : Table (Notification Content) := ⟨db.notifications, db.nodup.of_map⟩

/-- The flush of the rows that were marked as read. -/
def read (marked : List (Notification Content)) (now : DateTime) : NotificationDb Content where
  notifications := Batches.settle Notification.id (Notification.markRead now) marked
    db.notifications
  nodup := by
    have hkey : ∀ n : Notification Content, (n.markRead now).id = n.id := fun _ => rfl
    rw [Batches.map_key_settle hkey]
    exact db.nodup

end NotificationDb

/-! ## The repository -/

/-- `_base_query` -/
def baseQuery (notification : Notification Content) : Bool := notification.deletedAt.isNone

/-- The rows that `list_for_user` selects. -/
def forUser (userId : Id) (unreadOnly : Bool) (notification : Notification Content) : Bool :=
  baseQuery notification && notification.userId = userId &&
    (!unreadOnly || notification.readAt.isNone)

/-- The rows that `count_unread` selects. -/
def unreadOf (userId : Id) (notification : Notification Content) : Bool :=
  baseQuery notification &&
    (notification.userId = userId && notification.readAt.isNone)

namespace NotificationDb

variable (db : NotificationDb Content)

/-- `get` finds a row that is marked as deleted, too. -/
def get (id : Id) : Option (Notification Content) := db.notifications.find? (·.id = id)

/-- `list_for_user` -/
def listForUser (database : Database DateTime db.table) (userId : Id) (unreadOnly : Bool)
    (limit : Nat) : List (Notification Content) :=
  (database.answer (forUser userId unreadOnly) (newestFirst Notification.createdAt)).take limit

/-- `count_unread` -/
def countUnread (userId : Id) : Nat := (db.notifications.filter (unreadOf userId)).length

/-! ## The service -/

/-- `mark_read` -/
def markRead (id : Id) (now : DateTime) :
    Except NotificationError (Id × NotificationDb Content) :=
  match db.get id with
  | none => .error (.notFound "Notification not found.")
  | some notification =>
      if notification.readAt.isNone then .ok (id, db.read [notification] now) else .ok (id, db)

/-- `mark_all_read` -/
def markAllRead (database : Database DateTime db.table) (userId : Id) (now : DateTime) :
    Nat × NotificationDb Content :=
  let unread := db.listForUser database userId true 1000
  (unread.length, db.read unread now)

/-- `unread_count` -/
def unreadCount (userId : Id) : Nat := db.countUnread userId

/-! ## What marking does -/

variable {db}

theorem unreadCount_eq (userId : Id) :
    db.unreadCount userId = db.notifications.countP (unreadOf userId) :=
  List.countP_eq_length_filter.symm

/-- The two queries select the same rows. -/
theorem forUser_true (userId : Id) :
    (forUser userId true : Notification Content → Bool) = unreadOf userId := by
  funext notification
  unfold forUser unreadOf
  rw [Bool.not_true, Bool.false_or, Bool.and_assoc]

theorem unreadOf_markRead (userId : Id) (now : DateTime) (notification : Notification Content) :
    unreadOf userId (notification.markRead now) = false := by
  simp [unreadOf, Notification.markRead]

/-- What `mark_all_read` marks. -/
theorem isBatch_listForUser (database : Database DateTime db.table) (userId : Id) (limit : Nat) :
    Batches.IsBatch (unreadOf userId) limit db.notifications
      (db.listForUser database userId true limit) := by
  refine ⟨_, ?_, rfl⟩
  rw [← forUser_true]
  exact (database.orders _ _).perm

/-- The notifications of the other users stay as they are. -/
theorem read_others {userId : Id} {marked : List (Notification Content)} (now : DateTime)
    (hmem : ∀ n ∈ marked, n ∈ db.notifications) (hmarked : ∀ n ∈ marked, n.userId = userId) :
    (db.read marked now).notifications.filter (fun n => n.userId ≠ userId) =
      db.notifications.filter (fun n => n.userId ≠ userId) :=
  Batches.filter_settle db.nodup hmem (fun n hn => by simp [hmarked n hn])
    fun n hn => by simp [Notification.markRead, hmarked n hn]

theorem unreadOf_iff {userId : Id} {n : Notification Content} :
    unreadOf userId n = true ↔
      n.deletedAt.isNone = true ∧ n.userId = userId ∧ n.readAt.isNone = true := by
  simp [unreadOf, baseQuery]

/-- What is unread of a user, whatever happens to the rows of the others. -/
theorem unreadCount_of_others {db' : NotificationDb Content} {userId other : Id}
    (hne : userId ≠ other) (h : db'.notifications.filter (fun n => n.userId ≠ other) =
      db.notifications.filter (fun n => n.userId ≠ other)) :
    db'.unreadCount userId = db.unreadCount userId := by
  have hmine : ∀ rows : List (Notification Content), rows.countP (unreadOf userId) =
      (rows.filter fun n => n.userId ≠ other).countP (unreadOf userId) := by
    intro rows
    rw [List.countP_filter]
    refine List.countP_congr fun n _ => ?_
    rw [Bool.and_eq_true, decide_eq_true_eq]
    refine ⟨fun hunread => ⟨hunread, ?_⟩, And.left⟩
    rw [(unreadOf_iff.mp hunread).2.1]
    exact hne
  rw [unreadCount_eq, unreadCount_eq, hmine, h, ← hmine]

/-- `mark_read` takes an unread notification out of the count of its user, and nothing else. -/
theorem unreadCount_markRead {id id' : Id} {now : DateTime} {db' : NotificationDb Content}
    {n : Notification Content} (hn : db.get id = some n)
    (h : db.markRead id now = .ok (id', db')) (userId : Id) :
    db'.unreadCount userId + (if unreadOf userId n then 1 else 0) = db.unreadCount userId := by
  unfold markRead at h
  rw [hn] at h
  dsimp only at h
  split at h
  · cases h
    have hcount := @Batches.countP_settle _ _ Notification.id (unreadOf userId)
      (Notification.markRead now) db.notifications [n] _ db.nodup (List.nodup_singleton n)
      (fun a ha => by
        rw [List.mem_singleton.mp ha]
        exact List.mem_of_find?_eq_some hn)
      (unreadOf_markRead userId now)
    rw [List.countP_singleton] at hcount
    rw [unreadCount_eq, unreadCount_eq]
    exact hcount
  · next hread =>
      cases h
      rw [if_neg fun hunread => hread (unreadOf_iff.mp hunread).2.2]
      rfl

/-! ## Reading all -/

/-- The user is left nothing unread, the number is that of what was unread, and the notifications
of the other users stay as they are. -/
structure ReadsAll (db : NotificationDb Content) (userId : Id)
    (result : Nat × NotificationDb Content) : Prop where
  unread_count : result.2.unreadCount userId = 0
  returned : result.1 = db.unreadCount userId
  others : result.2.notifications.filter (fun n => n.userId ≠ userId) =
    db.notifications.filter (fun n => n.userId ≠ userId)

theorem returned_markAllRead (database : Database DateTime db.table) (userId : Id)
    (now : DateTime) :
    (db.markAllRead database userId now).1 = min 1000 (db.unreadCount userId) := by
  rw [unreadCount_eq]
  exact (isBatch_listForUser database userId 1000).length_eq

theorem unreadCount_markAllRead (database : Database DateTime db.table) (userId : Id)
    (now : DateTime) :
    (db.markAllRead database userId now).2.unreadCount userId =
      db.unreadCount userId - 1000 := by
  rw [unreadCount_eq, unreadCount_eq]
  exact Batches.pending_settle db.nodup (unreadOf_markRead userId now)
    (isBatch_listForUser database userId 1000)

theorem markAllRead_others (database : Database DateTime db.table) (userId : Id)
    (now : DateTime) :
    (db.markAllRead database userId now).2.notifications.filter (fun n => n.userId ≠ userId) =
      db.notifications.filter (fun n => n.userId ≠ userId) := by
  have hbatch := isBatch_listForUser database userId 1000
  exact read_others now (fun _ hn => (hbatch.mem hn).1)
    fun _ hn => (unreadOf_iff.mp (hbatch.mem hn).2).2.1

/-- `mark_all_read` reads all of at most 1000 notifications. -/
theorem mark_all_read_iff (db : NotificationDb Content) (database : Database DateTime db.table)
    (userId : Id) (now : DateTime) :
    ReadsAll db userId (db.markAllRead database userId now) ↔ db.unreadCount userId ≤ 1000 := by
  constructor
  · intro h
    have hnone := h.unread_count
    rw [unreadCount_markAllRead] at hnone
    exact Nat.le_of_sub_eq_zero hnone
  · intro hle
    refine ⟨?_, ?_, markAllRead_others database userId now⟩
    · rw [unreadCount_markAllRead]
      exact Nat.sub_eq_zero_of_le hle
    · rw [returned_markAllRead]
      exact Nat.min_eq_right hle

/-! ## One batch after the other -/

/-- A call of `mark_all_read`, with the answers that the database gives it. -/
structure ReadAll (Content : Type) where
  answers : (db : NotificationDb Content) → Database DateTime db.table
  userId : Id
  now : DateTime

def ReadAll.step (db : NotificationDb Content) (call : ReadAll Content) : NotificationDb Content :=
  (db.markAllRead (call.answers db) call.userId call.now).2

/-- Each call of the user reads 1000 more, and the calls of the others read nothing of theirs. -/
theorem unreadCount_run (userId : Id) (calls : List (ReadAll Content))
    (db : NotificationDb Content) : (Run.run ReadAll.step db calls).unreadCount userId =
      db.unreadCount userId - 1000 * calls.countP fun call => call.userId = userId := by
  induction calls generalizing db with
  | nil => rfl
  | cons call calls ih =>
      rw [Run.run_cons, ih, List.countP_cons]
      by_cases hmine : call.userId = userId
      · subst hmine
        rw [ReadAll.step, unreadCount_markAllRead, if_pos (decide_eq_true rfl)]
        omega
      · have hsame : (ReadAll.step db call).unreadCount userId = db.unreadCount userId :=
          unreadCount_of_others (Ne.symm hmine) (markAllRead_others _ _ _)
        rw [hsame, if_neg (by simp [hmine])]
        rfl

/-! ## One notification too many -/

/-- A database that leaves equal rows in their order. -/
def stableDatabase (table : Table (Notification Content)) : Database DateTime table where
  answer selects keys := (table.rows.filter selects).insertionSort (Repositories.ComesBefore keys)
  orders _ keys :=
    ⟨List.perm_insertionSort _ _, Sorting.pairwise_insertionSort
      (Repositories.comesBefore_total keys) (Repositories.comesBefore_trans keys) _⟩

/-- A user with so many unread notifications. -/
def unreadInbox (userId : Id) (n : Nat) : NotificationDb Unit where
  notifications := (List.range n).map fun i =>
    { id := i, userId, status := .pending, readAt := none, createdAt := 0, deletedAt := none
      content := () }
  nodup := by
    rw [List.map_map]
    exact List.nodup_range.map fun _ _ => id

theorem unreadCount_unreadInbox (userId : Id) (n : Nat) :
    (unreadInbox userId n).unreadCount userId = n := by
  rw [unreadCount_eq, unreadInbox, List.countP_map]
  refine (List.countP_eq_length.mpr fun i _ => ?_).trans List.length_range
  exact unreadOf_iff.mpr ⟨rfl, rfl, rfl⟩

/-- Of 1001 unread notifications one is left. -/
theorem mark_all_read_leaves_one :
    ¬ ReadsAll (unreadInbox 7 1001) 7
      ((unreadInbox 7 1001).markAllRead (stableDatabase _) 7 60) := by
  intro h
  have hnone := h.unread_count
  rw [unreadCount_markAllRead, unreadCount_unreadInbox] at hnone
  cases hnone

end NotificationDb

end YoutubeFactory.Notifications

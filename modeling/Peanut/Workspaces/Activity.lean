import Peanut.NewestFirst
import Peanut.Workspaces.Members

/-!
# The activity of an app

`list_app_activity` of `api/audit.rs` gives the audit log of an app a page at a time, with a
cursor that says where the next page begins.  Other requests go on writing into the log.
Who follows the cursor to the end has seen every entry that was there when it began, each
once and the newest first (`activity_complete`).
-/

namespace Peanut

open Relational

/-! ### Pages -/

structure AuditLogQuery where
  action : Option String := none
  resourceType : Option String := none
  actorUserId : Option String := none
  cursor : Option String := none
  limit : Option Int := none
deriving DecidableEq, Repr

structure AuditLogResponse where
  activity : List AuditLog
  nextCursor : Option String
deriving DecidableEq, Repr

def parseCursor (cursor : Option String) : Option String × Option String :=
  match cursor.bind (splitOnce '|') with
  | none => (none, none)
  | some (createdAt, id) => (some createdAt, some id)

def AuditLogQuery.accepts (query : AuditLogQuery) (appId : String) (entry : AuditLog) : Bool :=
  entry.appId == some appId && query.action.all (entry.action == ·) &&
    query.resourceType.all (entry.targetType == ·) &&
      query.actorUserId.all (entry.actorUserId == ·)

/-- Is the entry behind the cursor?  A comparison with `NULL` is not true. -/
def AuditLog.isBehind (cursor : Option String × Option String) (entry : AuditLog) : Bool :=
  cursor.1.all fun createdAt =>
    strLt entry.createdAt createdAt ||
      (entry.createdAt == createdAt && cursor.2.any (strLt entry.id ·))

def AuditLog.stamp (entry : AuditLog) : RowStamp := (entry.createdAt, entry.id)

/-- `limit.unwrap_or(50).clamp(1, 100)`. -/
def AuditLogQuery.pageSize (query : AuditLogQuery) : Nat :=
  (max 1 (min (query.limit.getD 50) 100)).toNat

def AuditLog.cursor (entry : AuditLog) : String := entry.createdAt ++ "|" ++ entry.id

def listAppActivity (db : Db) (claims : Claims) (appId : String) (query : AuditLogQuery) :
    Except ApiError AuditLogResponse := do
  Outcome.ensure claims.isAdmin (jsonError .forbidden "admin access required")
  let matching := db.auditLogs.select fun entry =>
    query.accepts appId entry && entry.isBehind (parseCursor query.cursor)
  let activity :=
    (matching.mergeSort fun a b => newestFirst a.stamp b.stamp).take query.pageSize
  return { activity := activity, nextCursor := activity.getLast?.map AuditLog.cursor }

/-! ### Following the cursor -/

/-- What a handler passes to `record_audit_log`. -/
structure AuditEvent where
  env : Env
  uuid : String
  appId : Option String
  claims : Claims
  action : String
  targetType : String
  targetId : String
  metadata : Value

def AuditEvent.record (db : Db) (e : AuditEvent) : Db :=
  db.recordAuditLog e.env e.uuid e.appId e.claims e.action e.targetType e.targetId e.metadata

/-- Ask for page after page until one is empty; `meantime` is what is recorded before each
    request. -/
def followActivity (claims : Claims) (appId : String) (query : AuditLogQuery) :
    Db → List (List AuditEvent) → Option String → Option (List AuditLog)
  | _, [], _ => none
  | db, events :: meantime, cursor =>
      let db := events.foldl AuditEvent.record db
      match listAppActivity db claims appId { query with cursor := cursor } with
      | .error _ => none
      | .ok response =>
          if response.activity.isEmpty then some []
          else (followActivity claims appId query db meantime response.nextCursor).map
            (response.activity ++ ·)

/-- The entries that the query accepts, at each request. -/
def activityFetches (appId : String) (query : AuditLogQuery) :
    Db → List (List AuditEvent) → List (List AuditLog)
  | _, [] => []
  | db, events :: meantime =>
      let db := events.foldl AuditEvent.record db
      db.auditLogs.select (query.accepts appId) :: activityFetches appId query db meantime

section Follow

variable {db : Db} {claims : Claims} {appId : String} {query : AuditLogQuery}
  {events : List AuditEvent} {meantime : List (List AuditEvent)} {l : List AuditLog}

/-- A time that `CURRENT_TIMESTAMP` may have written. -/
def BarFree (time : String) : Prop := '|' ∉ time.toList

instance (time : String) : Decidable (BarFree time) :=
  inferInstanceAs (Decidable ('|' ∉ time.toList))

theorem record_auditLogs (db : Db) (e : AuditEvent) :
    (∀ entry ∈ db.auditLogs, entry ∈ (e.record db).auditLogs) ∧
      ∀ entry ∈ (e.record db).auditLogs, entry ∈ db.auditLogs ∨ entry.createdAt = e.env.now := by
  unfold AuditEvent.record Db.recordAuditLog
  dsimp only
  split
  · split
    · rename_i logs hinsert
      refine ⟨fun entry h => (KeyedTable.mem_insert? hinsert).mpr (.inl h), ?_⟩
      intro entry h
      rcases (KeyedTable.mem_insert? hinsert).mp h with h | rfl
      · exact .inl h
      · exact .inr rfl
    · exact ⟨fun _ h => h, fun _ h => .inl h⟩
  · exact ⟨fun _ h => h, fun _ h => .inl h⟩

theorem mem_foldl_record (events : List AuditEvent) {db : Db} {entry : AuditLog}
    (h : entry ∈ db.auditLogs) : entry ∈ (events.foldl AuditEvent.record db).auditLogs := by
  induction events generalizing db with
  | nil => exact h
  | cons e events ih => exact ih ((record_auditLogs db e).1 entry h)

theorem barFree_foldl_record {events : List AuditEvent} (hevents : ∀ e ∈ events, BarFree e.env.now)
    {db : Db} (h : ∀ entry ∈ db.auditLogs, BarFree entry.createdAt) :
    ∀ entry ∈ (events.foldl AuditEvent.record db).auditLogs, BarFree entry.createdAt := by
  induction events generalizing db with
  | nil => exact h
  | cons e events ih =>
    refine ih (fun e' h' => hevents e' (List.mem_cons_of_mem e h')) ?_
    intro entry hentry
    rcases (record_auditLogs db e).2 entry hentry with hold | hnow
    · exact h entry hold
    · rw [hnow]
      exact hevents e List.mem_cons_self

theorem isBehind_cursor {last : AuditLog} (hlast : BarFree last.createdAt) (entry : AuditLog) :
    entry.isBehind (parseCursor (some last.cursor)) =
      decide (toLex entry.stamp < toLex last.stamp) := by
  have hsplit : splitOnce '|' last.cursor = some (last.createdAt, last.id) :=
    splitOnce_append hlast last.id
  have hparsed : parseCursor (some last.cursor) = (some last.createdAt, some last.id) := by
    simp [parseCursor, hsplit]
  rw [hparsed, Bool.eq_iff_iff, decide_eq_true_eq, Prod.Lex.toLex_lt_toLex]
  simp [AuditLog.isBehind, AuditLog.stamp, strLt_iff_lt]

/-- The cursor of a request and the stamp it stands for. -/
def CursorAt (cursor : Option String) (stamp : Option (Lex RowStamp)) : Prop :=
  ∀ entry : AuditLog, entry.isBehind (parseCursor cursor) =
    stamp.all fun c => decide (toLex entry.stamp < c)

theorem cursorAt_none : CursorAt none none := fun _ => rfl

/-- **One request** is one page. -/
theorem listAppActivity_eq (hadmin : claims.isAdmin = true) {cursor : Option String}
    {stamp : Option (Lex RowStamp)} (hcursor : CursorAt cursor stamp) :
    let activity := KeysetPaging.page (fun e : AuditLog => toLex e.stamp) query.pageSize
      (db.auditLogs.select (query.accepts appId)) stamp
    listAppActivity db claims appId { query with cursor := cursor } =
      .ok { activity := activity, nextCursor := activity.getLast?.map AuditLog.cursor } := by
  have hbehind : (db.auditLogs.select fun e => query.accepts appId e &&
        e.isBehind (parseCursor cursor)) =
      KeysetPaging.behind (fun e : AuditLog => toLex e.stamp) stamp
        (db.auditLogs.select (query.accepts appId)) := by
    rw [KeysetPaging.behind, KeyedTable.select, KeyedTable.select, List.filter_filter]
    refine List.filter_congr fun e _ => ?_
    rw [hcursor e, Bool.and_comm]
  intro activity
  have haccepts : AuditLogQuery.accepts { query with cursor := cursor } appId =
      query.accepts appId := rfl
  have hpage : AuditLogQuery.pageSize { query with cursor := cursor } = query.pageSize := rfl
  rw [listAppActivity, hadmin, Outcome.ensure_true, Outcome.ok_bind]
  simp only [haccepts, hpage, hbehind, mergeSort_newestFirst]
  rfl

/-- **Following the cursor** is following the keys. -/
theorem followActivity_eq (hadmin : claims.isAdmin = true)
    (hstart : ∀ entry ∈ db.auditLogs, BarFree entry.createdAt)
    (hmeantime : ∀ events ∈ meantime, ∀ e ∈ events, BarFree e.env.now) {cursor : Option String}
    {stamp : Option (Lex RowStamp)} (hcursor : CursorAt cursor stamp) :
    followActivity claims appId query db meantime cursor =
      KeysetPaging.follow (fun e : AuditLog => toLex e.stamp) query.pageSize
        (activityFetches appId query db meantime) stamp := by
  induction meantime generalizing db cursor stamp with
  | nil => rfl
  | cons events meantime ih =>
    have hnow := barFree_foldl_record (hmeantime events List.mem_cons_self) hstart
    rw [followActivity, activityFetches, KeysetPaging.follow]
    simp only [listAppActivity_eq hadmin hcursor]
    rcases hlast : (KeysetPaging.page (fun e : AuditLog => toLex e.stamp) query.pageSize
        ((events.foldl AuditEvent.record db).auditLogs.select (query.accepts appId))
          stamp).getLast? with _ | last
    · rw [List.getLast?_eq_none_iff] at hlast
      simp [hlast]
    · have hmem := List.mem_of_getLast? hlast
      have hlog : last ∈ (events.foldl AuditEvent.record db).auditLogs :=
        (KeyedTable.mem_select.mp
          (KeysetPaging.mem_behind.mp (KeysetPaging.mem_of_mem_page hmem)).1).1
      have hne : (KeysetPaging.page (fun e : AuditLog => toLex e.stamp) query.pageSize
          ((events.foldl AuditEvent.record db).auditLogs.select (query.accepts appId))
            stamp).isEmpty = false := by
        rw [List.isEmpty_eq_false_iff]
        exact List.ne_nil_of_mem hmem
      have hnext : CursorAt (some last.cursor) (some (toLex last.stamp)) :=
        isBehind_cursor (hnow last hlog)
      rw [if_neg (by simp [hne]), Option.map_some,
        ih hnow (fun events' h' => hmeantime events' (List.mem_cons_of_mem events h')) hnext]

theorem mem_activityFetches {rows : List AuditLog}
    (h : rows ∈ activityFetches appId query db meantime) :
    KeysetPaging.Keyed (fun e : AuditLog => toLex e.stamp) rows ∧
      (∀ entry ∈ db.auditLogs, query.accepts appId entry = true → entry ∈ rows) ∧
      ∀ entry ∈ rows, query.accepts appId entry = true ∧
        entry ∈ (meantime.flatten.foldl AuditEvent.record db).auditLogs := by
  induction meantime generalizing db with
  | nil => cases h
  | cons events meantime ih =>
    rw [List.flatten_cons, List.foldl_append]
    rcases List.mem_cons.mp h with rfl | h
    · refine ⟨keyed_of_nodup AuditLog.stamp ?_, ?_, ?_⟩
      · exact (events.foldl AuditEvent.record db).auditLogs.nodup.sublist
          (List.filter_sublist.map _)
      · intro entry hentry haccepts
        exact KeyedTable.mem_select.mpr ⟨mem_foldl_record events hentry, haccepts⟩
      · intro entry hentry
        obtain ⟨hentry, haccepts⟩ := KeyedTable.mem_select.mp hentry
        exact ⟨haccepts, mem_foldl_record meantime.flatten hentry⟩
    · obtain ⟨hkeyed, hall, honly⟩ := ih h
      exact ⟨hkeyed, fun entry hentry => hall entry (mem_foldl_record events hentry), honly⟩

theorem AuditLogQuery.pageSize_pos (query : AuditLogQuery) : 0 < query.pageSize := by
  rw [AuditLogQuery.pageSize]
  omega

theorem length_activityFetches :
    (activityFetches appId query db meantime).length = meantime.length := by
  induction meantime generalizing db with
  | nil => rfl
  | cons events meantime ih => rw [activityFetches, List.length_cons, ih, List.length_cons]

/-- **Who follows the cursor** comes to its end once the requests outnumber the entries, and
    then has got every entry that was there at the beginning and that the query accepts, no
    entry twice and the newest first, and nothing that the query does not accept, however
    much was recorded meanwhile. -/
theorem activity_complete (hadmin : claims.isAdmin = true)
    (hstart : ∀ entry ∈ db.auditLogs, BarFree entry.createdAt)
    (hmeantime : ∀ events ∈ meantime, ∀ e ∈ events, BarFree e.env.now) :
    let recorded := (meantime.flatten.foldl AuditEvent.record db).auditLogs
    ((recorded.select (query.accepts appId)).length < meantime.length →
      ∃ l, followActivity claims appId query db meantime none = some l) ∧
    ∀ l, followActivity claims appId query db meantime none = some l →
      (l.Pairwise fun a b => toLex b.stamp < toLex a.stamp) ∧
      (∀ entry ∈ db.auditLogs, query.accepts appId entry = true → entry ∈ l) ∧
      ∀ entry ∈ l, query.accepts appId entry = true ∧ entry ∈ recorded := by
  intro recorded
  rw [followActivity_eq hadmin hstart hmeantime cursorAt_none]
  refine ⟨fun hless => ?_, fun l h => ⟨?_, ?_, ?_⟩⟩
  · refine KeysetPaging.follow_ends
      ((recorded.select (query.accepts appId)).map fun entry => toLex entry.stamp) ?_ ?_
    · intro rows hrows entry hentry
      obtain ⟨haccepts, hmem⟩ := (mem_activityFetches hrows).2.2 entry hentry
      exact List.mem_map.mpr ⟨entry, KeyedTable.mem_select.mpr ⟨hmem, haccepts⟩, rfl⟩
    · rw [length_activityFetches]
      refine (List.length_filter_le ..).trans_lt ?_
      rwa [List.length_map]
  · exact KeysetPaging.follow_sorted (fun rows hrows => (mem_activityFetches hrows).1) h
  · intro entry hentry haccepts
    refine KeysetPaging.follow_complete query.pageSize_pos
      (fun rows hrows => (mem_activityFetches hrows).1) h ?_ nofun
    intro rows hrows
    exact (mem_activityFetches hrows).2.1 entry hentry haccepts
  · intro entry hentry
    obtain ⟨-, rows, hrows, hmem⟩ := KeysetPaging.follow_sound h hentry
    exact (mem_activityFetches hrows).2.2 entry hmem

end Follow

def blogAdmin : User :=
  { id := "ira", appId := "default", email := "ira@example.com", passwordHash := ""
    isActive := true, isAdmin := true, adminRole := .owner, createdAt := "2025-12-31 22:00:00" }

def blogCreated : AuditLog :=
  { id := "a1", appId := some "blog", actorUserId := "ira", actorRole := .owner
    action := "app.created", targetType := "app", targetId := "blog", metadata := .null
    createdAt := "2025-12-31 23:00:00" }

def blogLog : Db :=
  { users := ⟨[blogAdmin], by decide⟩
    apps := ⟨[{ id := "blog", name := "blog", displayName := "Blog", workspaceId := "w"
                createdBy := none, createdAt := "", updatedAt := "", deletedAt := none }],
              by decide⟩
    auditLogs := ⟨[blogCreated], by decide⟩ }

def iraClaims : Claims := { sub := "ira", appId := "default", exp := 0, isAdmin := true }

/-- Recorded while the log is read. -/
def blogDeployed : AuditEvent :=
  { env := sampleEnv "d", uuid := "a2", appId := some "blog", claims := iraClaims
    action := "function.deployed", targetType := "function", targetId := "f", metadata := .null }

theorem blog_activity_complete :
    let query : AuditLogQuery := { limit := some 1 }
    ∀ entry ∈ blogLog.auditLogs, query.accepts "blog" entry = true → entry ∈ [blogCreated] := by
  intro query
  have hfirst : listAppActivity blogLog iraClaims "blog" { limit := some 1 } =
      .ok { activity := [blogCreated], nextCursor := some blogCreated.cursor } := by
    have hselect : blogLog.auditLogs.select (fun entry =>
        AuditLogQuery.accepts { limit := some 1 } "blog" entry &&
          entry.isBehind (parseCursor none)) = [blogCreated] := by decide
    simp only [listAppActivity, hselect, List.mergeSort_singleton]
    decide
  have hsecond : listAppActivity (blogDeployed.record blogLog) iraClaims "blog"
      { limit := some 1, cursor := some blogCreated.cursor } =
        .ok { activity := [], nextCursor := none } := by
    have hselect : (blogDeployed.record blogLog).auditLogs.select (fun entry =>
        AuditLogQuery.accepts { limit := some 1, cursor := some blogCreated.cursor } "blog" entry &&
          entry.isBehind (parseCursor (some blogCreated.cursor))) = [] := by decide
    simp only [listAppActivity, hselect, List.mergeSort_nil]
    decide
  have hfollow : followActivity iraClaims "blog" query blogLog [[], [blogDeployed]] none =
      some [blogCreated] := by
    simp only [followActivity, query, List.foldl_nil, List.foldl_cons, hfirst, hsecond]
    rfl
  have hstart : ∀ entry ∈ blogLog.auditLogs, BarFree entry.createdAt := by
    intro entry hentry
    rw [List.mem_singleton.mp hentry]
    decide
  have hmeantime : ∀ events ∈ [[], [blogDeployed]], ∀ e ∈ events, BarFree e.env.now := by
    simp only [List.mem_cons, List.not_mem_nil, or_false, forall_eq_or_imp, forall_eq,
      false_imp_iff, implies_true, true_and]
    decide
  exact ((activity_complete rfl hstart hmeantime).2 _ hfollow).2.1

end Peanut

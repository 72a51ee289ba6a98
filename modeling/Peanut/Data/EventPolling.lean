import Peanut.Library.CursorPolling
import Peanut.Data.EventHistory

/-!
# Reading the events of a table

`list_row_events` of `api/data/events.rs`, and a client that polls it from the
last event it was given.  The database takes `limit` events behind `since_id`,
the handler drops those that the request filters out, and the client goes on
from what is left.
-/

namespace Peanut

open CursorPolling Relational

/-! ### The handler -/

structure ListRowEventsParams where
  limit : Option UInt64 := none
  rowId : Option String := none
  action : Option String := none
  sinceId : Option Int := none
deriving DecidableEq, Repr

structure DataRowEventResponse where
  id : Nat
  rowId : String
  actorUserId : String
  action : String
  diff : Option Value
  createdAt : String
deriving DecidableEq, Repr

def DataRowEventResponse.ofRecord (e : DataRowEvent) : DataRowEventResponse :=
  { id := e.id, rowId := e.rowId, actorUserId := e.actorUserId, action := e.action, diff := e.diff
    createdAt := e.createdAt }

structure DataRowEventsResponse where
  events : List DataRowEventResponse
deriving DecidableEq, Repr

def MAX_LIST_EVENTS : Nat := 200

/-- `params.limit.unwrap_or(MAX_LIST_ROWS).min(200)`. -/
def eventLimit (params : ListRowEventsParams) : Nat :=
  min (params.limit.getD (UInt64.ofNat MAX_LIST_ROWS)).toNat MAX_LIST_EVENTS

/-- The event passes both filters. -/
def ListRowEventsParams.matches (params : ListRowEventsParams) (e : DataRowEvent) : Bool :=
  (params.rowId.all fun rowId => e.rowId == rowId) &&
    params.action.all fun action => e.action == action

/-- The loop over the records; `count` events were pushed before. -/
def pushEvents (params : ListRowEventsParams) (limit : Nat) :
    (count : Nat) → List DataRowEvent → List DataRowEventResponse
  | _, [] => []
  | count, e :: records =>
      if params.matches e then
        .ofRecord e :: if count + 1 ≥ limit then [] else pushEvents params limit (count + 1) records
      else pushEvents params limit count records

/-- The events of a table, by id. -/
def tableEvents (db : Db) (appId tableId : String) : List DataRowEvent :=
  orderById (db.dataRowEvents.select fun e => e.appId == appId && e.tableId == tableId)

def listRowEvents (pf : Platform) (db : Db) (claims : Claims) (tableName : String)
    (params : ListRowEventsParams) : Except ApiError (Reply DataRowEventsResponse) := do
  Outcome.ensure claims.isAdmin (jsonError .forbidden "admin access required")
  let table ← requireTable pf db claims.appId tableName
  let limit := eventLimit params
  Outcome.ensure (params.action.all fun action => ["insert", "update", "delete"].contains action)
    (jsonError .badRequest "action must be insert, update, or delete")
  Outcome.ensure (params.sinceId.all fun sinceId => decide (0 ≤ sinceId))
    (jsonError .badRequest "since_id must be greater than or equal to 0")
  let events := tableEvents db claims.appId table.id
  let records :=
    match params.sinceId with
    | some sinceId => (events.filter fun e => decide (sinceId < (e.id : Int))).take limit
    | none => events.reverse.take MAX_LIST_EVENTS
  return { status := .ok, body := { events := pushEvents params limit 0 records } }

/-! ### The client -/

/-- Ask for what comes after the last event that was returned, until nothing is. -/
def pollEvents (pf : Platform) (db : Db) (claims : Claims) (tableName : String)
    (params : ListRowEventsParams) :
    (rounds : Nat) → (sinceId : Int) → Except ApiError (Option (List DataRowEventResponse))
  | 0, _ => .ok none
  | rounds + 1, sinceId => do
      let reply ← listRowEvents pf db claims tableName { params with sinceId := some sinceId }
      match reply.body.events.getLast? with
      | none => return some []
      | some last => do
          let rest ← pollEvents pf db claims tableName params rounds last.id
          return rest.map (reply.body.events ++ ·)

/-! ### A poll of the log -/

variable {pf : Platform} {db : Db} {claims : Claims} {table : LoadedTable} {tableName : String}
  {params : ListRowEventsParams}

theorem pushEvents_eq {records : List DataRowEvent} {limit count : Nat}
    (h : count + records.length ≤ limit) :
    pushEvents params limit count records =
      (records.filter params.matches).map DataRowEventResponse.ofRecord := by
  induction records generalizing count with
  | nil => rfl
  | cons e records ih =>
    rw [List.length_cons] at h
    rw [pushEvents, List.filter_cons]
    split
    · rw [List.map_cons]
      split
      · have hnil : records = [] := List.eq_nil_of_length_eq_zero (by omega)
        rw [hnil]
        rfl
      · rw [ih (by omega)]
    · exact ih (by omega)

/-- The place of an event in the log. -/
def DataRowEvent.position (e : DataRowEvent) : Int := e.id

theorem tableEvents_sorted (db : Db) (appId tableId : String) :
    (tableEvents db appId tableId).Pairwise fun a b => a.position < b.position := by
  let events := db.dataRowEvents.select fun e => e.appId == appId && e.tableId == tableId
  have hperm : (tableEvents db appId tableId).Perm events := List.mergeSort_perm _ _
  have htrans : ∀ a b c : DataRowEvent, decide (a.id ≤ b.id) = true → decide (b.id ≤ c.id) = true →
      decide (a.id ≤ c.id) = true := fun a b c hab hbc =>
    decide_eq_true (Nat.le_trans (of_decide_eq_true hab) (of_decide_eq_true hbc))
  have htotal : ∀ a b : DataRowEvent, (decide (a.id ≤ b.id) || decide (b.id ≤ a.id)) = true :=
    fun a b => by
      rw [Bool.or_eq_true, decide_eq_true_eq, decide_eq_true_eq]
      exact Nat.le_total a.id b.id
  have hsorted := List.pairwise_mergeSort htrans htotal events
  have hnodup : ((tableEvents db appId tableId).map (·.id)).Nodup :=
    (hperm.map _).nodup_iff.mpr (db.dataRowEvents.nodup.sublist (List.filter_sublist.map _))
  refine (hsorted.and (List.pairwise_map.mp hnodup)).imp fun {a b} h => ?_
  have hle := of_decide_eq_true h.1
  have hne := h.2
  rw [DataRowEvent.position, DataRowEvent.position]
  omega

theorem map_ofRecord_inj {appId tableId : String} {events events' : List DataRowEvent}
    (h : ∀ e ∈ events, e ∈ tableEvents db appId tableId)
    (h' : ∀ e ∈ events', e ∈ tableEvents db appId tableId)
    (hsame : events.map DataRowEventResponse.ofRecord =
      events'.map DataRowEventResponse.ofRecord) : events = events' := by
  induction events generalizing events' with
  | nil => exact (List.map_eq_nil_iff.mp hsame.symm).symm
  | cons e events ih =>
    obtain ⟨e', rest, rfl, he, hrest⟩ := List.map_eq_cons_iff.mp hsame.symm
    rw [List.forall_mem_cons] at h h'
    have hstored : ∀ x ∈ tableEvents db appId tableId, x ∈ db.dataRowEvents := fun x hx =>
      (KeyedTable.mem_select.mp (List.mem_mergeSort.mp hx)).1
    have hid : e.id = e'.id := congrArg DataRowEventResponse.id he.symm
    rw [db.dataRowEvents.eq_of_key_eq (hstored e h.1) (hstored e' h'.1) hid,
      ih h.2 h'.2 hrest.symm]

section Poll

variable (hadmin : claims.isAdmin = true)
  (hload : loadTable pf db claims.appId tableName = some table)
  (haction : ∀ action, params.action = some action → action ∈ ["insert", "update", "delete"])

include hadmin hload haction

theorem listRowEvents_eq {sinceId : Int} (hsince : 0 ≤ sinceId) :
    listRowEvents pf db claims tableName { params with sinceId := some sinceId } =
      .ok { status := .ok
            body := { events := (fetchPage DataRowEvent.position params.matches (eventLimit params)
              (tableEvents db claims.appId table.id) sinceId).map .ofRecord } } := by
  have hallowed : (params.action.all fun action =>
      ["insert", "update", "delete"].contains action) = true := by
    cases ha : params.action with
    | none => rfl
    | some action => exact List.contains_iff_mem.mpr (haction action ha)
  have hpushed : pushEvents { params with sinceId := some sinceId } (eventLimit params) 0
      (((tableEvents db claims.appId table.id).filter fun e => decide (sinceId < (e.id : Int))).take
        (eventLimit params)) =
      (fetchPage DataRowEvent.position params.matches (eventLimit params)
        (tableEvents db claims.appId table.id) sinceId).map DataRowEventResponse.ofRecord :=
    pushEvents_eq (by rw [Nat.zero_add]; exact List.length_take_le _ _)
  rw [← hpushed]
  simp only [listRowEvents, requireTable, hadmin, hload, hallowed, Outcome.ensure_true,
    Outcome.require_some, Outcome.ok_bind, Option.all_some, decide_eq_true hsince]
  rfl

theorem pollEvents_eq {rounds : Nat} {sinceId : Int} (hsince : 0 ≤ sinceId) :
    pollEvents pf db claims tableName params rounds sinceId =
      .ok ((poll DataRowEvent.position (fetchPage DataRowEvent.position params.matches
        (eventLimit params) (tableEvents db claims.appId table.id)) rounds sinceId).map
          (List.map .ofRecord)) := by
  induction rounds generalizing sinceId with
  | zero => rfl
  | succ rounds ih =>
    rw [pollEvents, listRowEvents_eq hadmin hload haction hsince, Outcome.ok_bind]
    dsimp only
    rw [List.getLast?_map, poll]
    cases hlast : (fetchPage DataRowEvent.position params.matches (eventLimit params)
      (tableEvents db claims.appId table.id) sinceId).getLast? with
    | none => rfl
    | some last =>
      have hnext : (0 : Int) ≤ (DataRowEventResponse.ofRecord last).id := Int.natCast_nonneg _
      rw [Option.map_some]
      dsimp only
      rw [ih hnext, Outcome.ok_bind]
      refine congrArg Except.ok ?_
      rw [Option.map_map, Option.map_map]
      refine congrArg (fun f => Option.map f _) (funext fun rest => ?_)
      exact List.map_append.symm

/-! ### What polling collects -/

/-- The events behind `sinceId` that pass the filters, in the order of their ids. -/
def eventsSince (db : Db) (appId tableId : String) (params : ListRowEventsParams)
    (sinceId : Int) : List DataRowEvent :=
  (tableEvents db appId tableId).filter fun e => decide (sinceId < e.position) && params.matches e

/-- The events behind `sinceId`, whatever the filters. -/
def unreadEvents (db : Db) (appId tableId : String) (sinceId : Int) : List DataRowEvent :=
  (tableEvents db appId tableId).filter fun e => decide (sinceId < e.position)

/-- **Polling misses nothing exactly when** fewer events than a request asks for
    stand before each event that passes the filters and do not pass them. -/
theorem event_polling_complete_iff {sinceId : Int} (hsince : 0 ≤ sinceId) :
    (∀ rounds, (tableEvents db claims.appId table.id).length < rounds →
      pollEvents pf db claims tableName params rounds sinceId =
        .ok (some ((eventsSince db claims.appId table.id params sinceId).map .ofRecord))) ↔
      gapsBelow params.matches (eventLimit params) 0
        (unreadEvents db claims.appId table.id sinceId) = true := by
  have hsorted := tableEvents_sorted db claims.appId table.id
  have hrounds : ∀ {rounds : Nat}, (tableEvents db claims.appId table.id).length < rounds →
      (after DataRowEvent.position (tableEvents db claims.appId table.id) sinceId).length <
        rounds := fun h => Nat.lt_of_le_of_lt (List.length_filter_le _ _) h
  have hevents : eventsSince db claims.appId table.id params sinceId =
      (after DataRowEvent.position (tableEvents db claims.appId table.id) sinceId).filter
        params.matches := by
    rw [eventsSince, after, List.filter_filter]
    exact List.filter_congr fun e _ => Bool.and_comm _ _
  have hpoll : ∀ rounds, pollEvents pf db claims tableName params rounds sinceId =
      .ok (some ((eventsSince db claims.appId table.id params sinceId).map .ofRecord)) ↔
        poll DataRowEvent.position (fetchPage DataRowEvent.position params.matches
          (eventLimit params) (tableEvents db claims.appId table.id)) rounds sinceId =
            some (eventsSince db claims.appId table.id params sinceId) := by
    intro rounds
    rw [pollEvents_eq hadmin hload haction hsince, Except.ok.injEq]
    constructor
    · intro h
      obtain ⟨events, hpolled, hsame⟩ := Option.map_eq_some_iff.mp h
      exact hpolled.trans (congrArg some (map_ofRecord_inj (mem_of_poll hpolled)
        (fun e he => (List.mem_filter.mp he).1) hsame))
    · intro h
      rw [h]
      rfl
  constructor
  · intro h
    have hall := (hpoll _).mp (h _ (Nat.lt_succ_self _))
    rw [hevents] at hall
    exact (poll_eq_filter_iff hsorted (hrounds (Nat.lt_succ_self _))).mp hall
  · intro h rounds hlt
    refine (hpoll rounds).mpr ?_
    rw [hevents]
    exact (poll_eq_filter_iff hsorted (hrounds hlt)).mpr h

end Poll

/-! ### A note comes and goes -/

/-- The note "a" is added and removed while "b" is added in between. -/
def eventsRun : List DataRequest :=
  notesSetup ++ [importNote "a" "one", importNote "b" "two",
    .deleteRow (sampleEnv "d") root "notes" "a"]

theorem eventsRun_table : ∃ table,
    loadTable asciiPlatform (runData asciiPlatform rootDb eventsRun) root.appId "notes" =
      some table ∧ table.id = "t0" := by
  have hstored : ((loadTable asciiPlatform (runData asciiPlatform rootDb eventsRun) root.appId
      "notes").map (·.id)) = some "t0" := by decide +kernel
  exact Option.map_eq_some_iff.mp hstored

theorem eventsRun_events : tableEvents (runData asciiPlatform rootDb eventsRun) root.appId "t0" =
    (runData asciiPlatform rootDb eventsRun).dataRowEvents.rows := by
  have hall : (runData asciiPlatform rootDb eventsRun).dataRowEvents.select
      (fun e => e.appId == root.appId && e.tableId == "t0") =
        (runData asciiPlatform rootDb eventsRun).dataRowEvents.rows := by decide +kernel
  rw [tableEvents, hall, orderById]
  exact List.mergeSort_of_pairwise (by decide +kernel)

/-- One event at a time, the deletions only: the first event is an insert, and
    polling ends. -/
theorem deletion_missed :
    pollEvents asciiPlatform (runData asciiPlatform rootDb eventsRun) root "notes"
        { limit := some 1, action := some "delete" } 4 0 = .ok (some []) ∧
      (eventsSince (runData asciiPlatform rootDb eventsRun) root.appId "t0"
        { limit := some 1, action := some "delete" } 0).map (·.rowId) = ["a"] := by
  obtain ⟨table, hload, hid⟩ := eventsRun_table
  constructor
  · rw [pollEvents_eq rfl hload (by simp) (Int.le_refl 0), hid, eventsRun_events]
    decide +kernel
  · rw [eventsSince, eventsRun_events]
    decide +kernel

/-- Three events at a time are enough to see it. -/
theorem deletion_seen :
    (∀ rounds, (tableEvents (runData asciiPlatform rootDb eventsRun) root.appId "t0").length <
        rounds →
      pollEvents asciiPlatform (runData asciiPlatform rootDb eventsRun) root "notes"
          { limit := some 3, action := some "delete" } rounds 0 =
        .ok (some ((eventsSince (runData asciiPlatform rootDb eventsRun) root.appId "t0"
          { limit := some 3, action := some "delete" } 0).map .ofRecord))) ∧
      (eventsSince (runData asciiPlatform rootDb eventsRun) root.appId "t0"
        { limit := some 3, action := some "delete" } 0).map (·.rowId) = ["a"] := by
  obtain ⟨table, hload, hid⟩ := eventsRun_table
  refine ⟨?_, ?_⟩
  · rw [← hid]
    refine (event_polling_complete_iff rfl hload (by simp) (Int.le_refl 0)).mpr ?_
    rw [hid, unreadEvents, eventsRun_events]
    decide +kernel
  · rw [eventsSince, eventsRun_events]
    decide +kernel

end Peanut

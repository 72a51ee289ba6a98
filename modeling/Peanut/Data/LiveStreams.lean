import Peanut.Data.LiveRows
import Peanut.Library.Broadcast

/-!
# Streams of row events

`stream_table_events_sdk` and `stream_row_events` subscribe to what the row requests send and
pass on the events of one table, those that the caller may read.  A listener that is more
than 256 events behind is set forward, and the stream does not say so.

The console finds its table under any spelling of the name but compares the name as it was
given, so a stream that it opens under another spelling is silent.
-/

namespace Peanut

open Relational Interleaving Broadcast

/-! ### Streams -/

inductive StreamStage where
  | received
  | listening (table : LoadedTable) (receiver : Receiver DataRowRealtimeEvent)
  | refused (error : ApiError)

/-- `stream_row_events` of the console, or `stream_table_events_sdk`. -/
structure StreamCall where
  console : Bool
  claims : Claims
  tableName : String
  stage : StreamStage

def openStream (pf : Platform) (db : Db) (c : StreamCall) : Except ApiError LoadedTable := do
  Outcome.ensure (!c.console || c.claims.isAdmin) (jsonError .forbidden "admin access required")
  let table ← requireTable pf db c.claims.appId c.tableName
  Outcome.ensure (c.console || canReadTable c.claims table.accessPolicy)
    (jsonError .forbidden "read access denied")
  return table

/-- The name that is looked for in the events: the console's is the one that was given. -/
def StreamCall.nameOf (c : StreamCall) (table : LoadedTable) : String :=
  if c.console then c.tableName else table.name

/-- Whether the stream passes the event on. -/
def StreamCall.shows (c : StreamCall) (table : LoadedTable) (e : DataRowRealtimeEvent) : Bool :=
  e.appId == c.claims.appId && e.tableName == c.nameOf table &&
    (c.console || c.claims.isAdmin ||
      canAccessRow c.claims table.accessPolicy e.ownerUserId .read)

/-- What the listener has been shown. -/
def StreamCall.shown (c : StreamCall) : List DataRowRealtimeEvent :=
  match c.stage with
  | .listening table receiver => receiver.taken.filter (c.shows table)
  | _ => []

/-- `broadcast::channel(256)`. -/
def EVENT_CAPACITY : Nat := 256

def StreamCall.step (pf : Platform) (lag : Lag EVENT_CAPACITY) (s : LiveStore) (c : StreamCall) :
    StreamCall :=
  match c.stage with
  | .received =>
      match openStream pf s.db c with
      | .error e => { c with stage := .refused e }
      | .ok table => { c with stage := .listening table (.subscribe s.sent) }
  | .listening table receiver => { c with stage := .listening table (receiver.poll lag s.sent) }
  | .refused _ => c

/-! ### Writers and listeners -/

inductive LiveCall where
  | writer (w : WriterCall)
  | stream (c : StreamCall)

namespace LiveCall

def step (pf : Platform) (lag : Lag EVENT_CAPACITY) (env : Env) (s : LiveStore) :
    LiveCall → LiveStore × LiveCall
  | .writer w => Prod.map id .writer (w.step pf env s)
  | .stream c => (s, .stream (c.step pf lag s))

/-- Nothing has been executed yet. -/
def Received : LiveCall → Prop
  | .writer w => w.call.Received ∧ w.unsent = none
  | .stream c => c.stage = .received

/-- The event that has been logged and not been sent. -/
def unsent : LiveCall → Option DataRowRealtimeEvent
  | .writer w => w.unsent
  | .stream _ => none

theorem Received.unsent_eq {c : LiveCall} (h : c.Received) : c.unsent = none := by
  cases c with
  | writer w => exact h.2
  | stream c => rfl

end LiveCall

/-! ### Every event is sent once -/

section Sent

variable {ι : Type*} {start : Nat} {s : LiveStore} {unsent : ι → Option DataRowRealtimeEvent}
  {e : DataRowRealtimeEvent} {i : ι}

/-- The event has been sent or is about to be. -/
def OnItsWay (s : LiveStore) (unsent : ι → Option DataRowRealtimeEvent)
    (e : DataRowRealtimeEvent) : Prop :=
  e ∈ s.sent ∨ ∃ i, unsent i = some e

/-- **The log and what is sent** of the events with ids from `start` on. -/
structure SentOnce (start : Nat) (s : LiveStore) (unsent : ι → Option DataRowRealtimeEvent) :
    Prop where
  issued : s.db.rowLog.Issued
  start_le : start ≤ s.db.dataRowEventSeq
  distinct : (s.sent.map (·.id)).Nodup
  apart : ∀ i e, unsent i = some e → e.id ∉ s.sent.map (·.id) ∧
    ∀ j e', unsent j = some e' → e'.id = e.id → j = i
  told : ∀ e, OnItsWay s unsent e → start < e.id ∧
    ∃ entry ∈ s.db.dataRowEvents, e.Tells s.db entry
  complete : ∀ entry ∈ s.db.dataRowEvents, start < entry.id →
    ∃ e, e.Tells s.db entry ∧ OnItsWay s unsent e

theorem sentOnce_nothing {db : Db} (hissued : db.rowLog.Issued) (hunsent : ∀ i, unsent i = none) :
    SentOnce db.dataRowEventSeq ⟨db, []⟩ unsent where
  issued := hissued
  start_le := Nat.le_refl _
  distinct := List.nodup_nil
  apart := by
    intro i e he
    rw [hunsent i] at he
    cases he
  told := by
    rintro e (he | ⟨i, he⟩)
    · cases he
    · rw [hunsent i] at he
      cases he
  complete := by
    intro entry hentry hstart
    exact absurd (hissued entry hentry) (Nat.not_le.mpr hstart)

theorem SentOnce.id_le (h : SentOnce start s unsent) (he : OnItsWay s unsent e) :
    e.id ≤ s.db.dataRowEventSeq := by
  obtain ⟨-, entry, hentry, htells⟩ := h.told e he
  rw [htells.id]
  exact h.issued entry hentry

theorem SentOnce.kept (h : SentOnce start s unsent) {db' : Db} (hkeeps : TablesStay s.db db')
    (hlog : db'.rowLog = s.db.rowLog) : SentOnce start { s with db := db' } unsent where
  issued := by
    rw [show ({ s with db := db' } : LiveStore).db.rowLog = s.db.rowLog from hlog]
    exact h.issued
  start_le := h.start_le.trans_eq (congrArg RowLog.seq hlog).symm
  distinct := h.distinct
  apart := h.apart
  told := by
    intro e' he'
    obtain ⟨hstart, entry, hentry, htells⟩ := h.told e' he'
    have hevents : db'.dataRowEvents = s.db.dataRowEvents := congrArg RowLog.events hlog
    exact ⟨hstart, entry, hevents ▸ hentry, htells.keep hkeeps⟩
  complete := by
    intro entry hentry hstart
    have hevents : db'.dataRowEvents = s.db.dataRowEvents := congrArg RowLog.events hlog
    obtain ⟨e', htells, he'⟩ := h.complete entry (hevents ▸ hentry) hstart
    exact ⟨e', htells.keep hkeeps, he'⟩

variable [DecidableEq ι]

theorem onItsWay_send (hunsent : unsent i = some e) (e' : DataRowRealtimeEvent) :
    OnItsWay { s with sent := s.sent ++ [e] } (Function.update unsent i none) e' ↔
      OnItsWay s unsent e' := by
  unfold OnItsWay
  rw [List.mem_append, List.mem_singleton]
  constructor
  · rintro ((hsent | rfl) | ⟨j, hj⟩)
    · exact .inl hsent
    · exact .inr ⟨i, hunsent⟩
    · rcases eq_or_ne j i with rfl | hne
      · rw [Function.update_self] at hj
        cases hj
      · rw [Function.update_of_ne hne] at hj
        exact .inr ⟨j, hj⟩
  · rintro (hsent | ⟨j, hj⟩)
    · exact .inl (.inl hsent)
    · rcases eq_or_ne j i with rfl | hne
      · rw [hunsent, Option.some.injEq] at hj
        exact .inl (.inr hj.symm)
      · refine .inr ⟨j, ?_⟩
        rwa [Function.update_of_ne hne]

theorem SentOnce.send (h : SentOnce start s unsent) (hunsent : unsent i = some e) :
    SentOnce start { s with sent := s.sent ++ [e] } (Function.update unsent i none) where
  issued := h.issued
  start_le := h.start_le
  distinct := by
    rw [List.map_append, List.map_singleton, List.nodup_append]
    refine ⟨h.distinct, List.nodup_singleton _, ?_⟩
    intro id hid id' hid' heq
    rw [List.mem_singleton.mp hid'] at heq
    exact (h.apart i e hunsent).1 (heq ▸ hid)
  apart := by
    intro j e' hj
    rcases eq_or_ne j i with rfl | hne
    · rw [Function.update_self] at hj
      cases hj
    · rw [Function.update_of_ne hne] at hj
      obtain ⟨hnot, honly⟩ := h.apart j e' hj
      refine ⟨?_, ?_⟩
      · rw [List.map_append, List.mem_append, List.map_singleton, List.mem_singleton]
        rintro (hsent | hsame)
        · exact hnot hsent
        · exact hne ((h.apart i e hunsent).2 j e' hj hsame)
      · intro k e'' hk hsame
        rcases eq_or_ne k i with rfl | hk'
        · rw [Function.update_self] at hk
          cases hk
        · rw [Function.update_of_ne hk'] at hk
          exact honly k e'' hk hsame
  told := by
    intro e' he'
    exact h.told e' ((onItsWay_send hunsent e').mp he')
  complete := by
    intro entry hentry hstart
    obtain ⟨e', htells, he'⟩ := h.complete entry hentry hstart
    exact ⟨e', htells, (onItsWay_send hunsent e').mpr he'⟩

theorem onItsWay_record (hunsent : unsent i = none) {db' : Db} (e' : DataRowRealtimeEvent) :
    OnItsWay { s with db := db' } (Function.update unsent i (some e)) e' ↔
      OnItsWay s unsent e' ∨ e' = e := by
  constructor
  · rintro (hsent | ⟨j, hj⟩)
    · exact .inl (.inl hsent)
    · rcases eq_or_ne j i with rfl | hne
      · rw [Function.update_self, Option.some.injEq] at hj
        exact .inr hj.symm
      · rw [Function.update_of_ne hne] at hj
        exact .inl (.inr ⟨j, hj⟩)
  · rintro ((hsent | ⟨j, hj⟩) | rfl)
    · exact .inl hsent
    · have hne : j ≠ i := by
        rintro rfl
        rw [hunsent] at hj
        cases hj
      refine .inr ⟨j, ?_⟩
      rwa [Function.update_of_ne hne]
    · exact .inr ⟨i, Function.update_self ..⟩

/-- **A statement that logs an event** makes it the newest one, and its request's to send. -/
theorem SentOnce.recorded (h : SentOnce start s unsent) (hunsent : unsent i = none) {db' : Db}
    {entry : DataRowEvent} (hkeeps : TablesStay s.db db') (htells : e.Tells db' entry)
    (hid : entry.id = s.db.dataRowEventSeq + 1) (hseq : db'.dataRowEventSeq = entry.id)
    (hmem : ∀ x, x ∈ db'.dataRowEvents ↔ x ∈ s.db.dataRowEvents ∨ x = entry) :
    SentOnce start { s with db := db' } (Function.update unsent i (some e)) := by
  have hgrown : s.db.dataRowEventSeq ≤ db'.dataRowEventSeq := by omega
  have hnew : ∀ e', OnItsWay s unsent e' → e'.id < e.id := by
    intro e' he'
    rw [htells.id, hid]
    exact Nat.lt_succ_of_le (h.id_le he')
  refine ⟨?_, h.start_le.trans hgrown, h.distinct, ?_, ?_, ?_⟩
  · intro x hx
    rcases (hmem x).mp hx with hx | rfl
    · exact (h.issued x hx).trans hgrown
    · exact hseq.ge
  · intro j e' hj
    rcases eq_or_ne j i with rfl | hne
    · rw [Function.update_self, Option.some.injEq] at hj
      subst hj
      refine ⟨?_, ?_⟩
      · intro hsent
        obtain ⟨e', he', hsame⟩ := List.mem_map.mp hsent
        exact (hnew e' (.inl he')).ne hsame
      · intro k e' hk hsame
        by_contra hk'
        rw [Function.update_of_ne hk'] at hk
        exact (hnew e' (.inr ⟨k, hk⟩)).ne hsame
    · rw [Function.update_of_ne hne] at hj
      obtain ⟨hnot, honly⟩ := h.apart j e' hj
      refine ⟨hnot, ?_⟩
      intro k e'' hk hsame
      rcases eq_or_ne k i with rfl | hk'
      · rw [Function.update_self, Option.some.injEq] at hk
        subst hk
        exact absurd hsame.symm (hnew e' (.inr ⟨j, hj⟩)).ne
      · rw [Function.update_of_ne hk'] at hk
        exact honly k e'' hk hsame
  · intro e' he'
    rcases (onItsWay_record hunsent e').mp he' with hold | rfl
    · obtain ⟨hstart, x, hx, hx'⟩ := h.told e' hold
      exact ⟨hstart, x, (hmem x).mpr (.inl hx), hx'.keep hkeeps⟩
    · refine ⟨?_, entry, (hmem entry).mpr (.inr rfl), htells⟩
      rw [htells.id, hid]
      exact Nat.lt_succ_of_le h.start_le
  · intro x hx hstart
    rcases (hmem x).mp hx with hx | rfl
    · obtain ⟨e', he', hway⟩ := h.complete x hx hstart
      exact ⟨e', he'.keep hkeeps, (onItsWay_record hunsent e').mpr (.inl hway)⟩
    · exact ⟨e, htells, (onItsWay_record hunsent e).mpr (.inr rfl)⟩

end Sent

/-! ### Runs -/

section Runs

variable {ι : Type*} {pf : Platform} {lag : Lag EVENT_CAPACITY} {start : Nat}
  {p : Pool ι LiveStore LiveCall}

/-- The events that requests have logged and not sent. -/
def unsentIn (p : Pool ι LiveStore LiveCall) (i : ι) : Option DataRowRealtimeEvent :=
  (p.request i).unsent

structure LiveSound (start : Nat) (p : Pool ι LiveStore LiveCall) : Prop where
  sent : SentOnce start p.store (unsentIn p)
  carries : ∀ i w, p.request i = .writer w → w.call.Carries p.store.db

variable {db : Db} {calls : ι → LiveCall}

theorem LiveSound.received (hissued : db.rowLog.Issued)
    (hcalls : ∀ i, (calls i).Received) : LiveSound db.dataRowEventSeq ⟨⟨db, []⟩, calls⟩ where
  sent := sentOnce_nothing hissued fun i => (hcalls i).unsent_eq
  carries := by
    intro i w hw
    have hreceived := hcalls i
    rw [show calls i = .writer w from hw] at hreceived
    exact hreceived.1.carries db

variable [DecidableEq ι]

theorem unsentIn_tick (p : Pool ι LiveStore LiveCall) (t : ι × Env) :
    unsentIn (tick (LiveCall.step pf lag) p t) =
      Function.update (unsentIn p) t.1
        (LiveCall.step pf lag t.2 p.store (p.request t.1)).2.unsent := by
  funext j
  rcases eq_or_ne j t.1 with rfl | hne
  · rw [Function.update_self, unsentIn, tick_request_self]
  · rw [Function.update_of_ne hne, unsentIn, tick_request_of_ne p t hne, unsentIn]

theorem LiveSound.of_step (h : LiveSound start p) {t : ι × Env} {s : LiveStore} {c : LiveCall}
    (hstep : LiveCall.step pf lag t.2 p.store (p.request t.1) = (s, c))
    (hsent : SentOnce start s (Function.update (unsentIn p) t.1 c.unsent))
    (hkeeps : TablesStay p.store.db s.db)
    (hcarries : ∀ w, c = .writer w → w.call.Carries s.db) :
    LiveSound start (tick (LiveCall.step pf lag) p t) where
  sent := by rwa [unsentIn_tick, tick_store, hstep]
  carries := by
    intro i w hw
    rw [tick_store, hstep]
    rcases eq_or_ne i t.1 with rfl | hne
    · rw [tick_request_self, hstep] at hw
      exact hcarries w hw
    · rw [tick_request_of_ne p t hne] at hw
      exact (h.carries i w hw).keep hkeeps

theorem LiveSound.tick (h : LiveSound start p) (t : ι × Env) :
    LiveSound start (tick (LiveCall.step pf lag) p t) := by
  rcases hrequest : p.request t.1 with w | c
  · have hcarries := h.carries t.1 w hrequest
    have hunsentIn : unsentIn p t.1 = w.unsent := by rw [unsentIn, hrequest, LiveCall.unsent]
    rcases hunsent : w.unsent with _ | e
    · obtain ⟨hstore, hcall, hchange⟩ := @WriterCall.step_change pf t.2 p.store w hunsent hcarries
      have hkeeps := @step_tablesStay pf t.2 p.store.db w.call
      have hstep : LiveCall.step pf lag t.2 p.store (p.request t.1) =
          ({ p.store with db := (w.call.step pf t.2 p.store.db).1 },
            .writer (w.step pf t.2 p.store).2) := by
        rw [hrequest, ← hstore]
        rfl
      refine h.of_step hstep ?_ hkeeps ?_
      · rw [LiveCall.unsent]
        rw [hunsent] at hunsentIn
        generalize (w.step pf t.2 p.store).2.unsent = logged at hchange
        cases hchange with
        | kept hlog =>
          rw [← hunsentIn, Function.update_eq_self]
          exact h.sent.kept hkeeps hlog
        | recorded htells hid hseq hmem =>
          exact h.sent.recorded hunsentIn hkeeps htells hid hseq hmem
      · rintro w' ⟨⟩
        rw [hcall]
        exact hcarries.step pf t.2
    · have hstep : LiveCall.step pf lag t.2 p.store (p.request t.1) =
          ({ p.store with sent := p.store.sent ++ [e] }, .writer { w with unsent := none }) := by
        rw [hrequest, LiveCall.step, WriterCall.step_unsent hunsent]
        rfl
      refine h.of_step hstep (h.sent.send (hunsentIn.trans hunsent)) (.of_eq rfl) ?_
      rintro w' ⟨⟩
      exact hcarries
  · have hstep : LiveCall.step pf lag t.2 p.store (p.request t.1) =
        (p.store, .stream (c.step pf lag p.store)) := by rw [hrequest, LiveCall.step]
    have hunsentIn : unsentIn p t.1 = none := by rw [unsentIn, hrequest, LiveCall.unsent]
    refine h.of_step hstep ?_ (.of_eq rfl) ?_
    · rw [LiveCall.unsent, ← hunsentIn, Function.update_eq_self]
      exact h.sent
    · intro w hw
      cases hw

/-- The pool after a schedule. -/
def liveRun (pf : Platform) (lag : Lag EVENT_CAPACITY) (db : Db) (calls : ι → LiveCall)
    (ticks : List (ι × Env)) : Pool ι LiveStore LiveCall :=
  run (LiveCall.step pf lag) ⟨⟨db, []⟩, calls⟩ ticks

theorem liveSound_run (hissued : db.rowLog.Issued)
    (hcalls : ∀ i, (calls i).Received) (ticks : List (ι × Env)) :
    LiveSound db.dataRowEventSeq (liveRun pf lag db calls ticks) := by
  have hstep : ∀ (p : Pool ι LiveStore LiveCall) t, LiveSound db.dataRowEventSeq p →
      LiveSound db.dataRowEventSeq (Interleaving.tick (LiveCall.step pf lag) p t) :=
    fun _ t h => h.tick t
  exact Transition.run_preserves hstep (.received hissued hcalls) ticks

/-- **Every event of the log is sent once**, as the log has it, or the next thing that the
    request does that has logged it is to send it. -/
theorem row_events_sent_once (pf : Platform) (lag : Lag EVENT_CAPACITY) {db : Db}
    (hissued : db.rowLog.Issued) {calls : ι → LiveCall} (hcalls : ∀ i, (calls i).Received)
    (ticks : List (ι × Env)) :
    let p := liveRun pf lag db calls ticks
    (p.store.sent.map (·.id)).Nodup ∧
      (∀ e ∈ p.store.sent, ∃ entry ∈ p.store.db.dataRowEvents, e.Tells p.store.db entry) ∧
      ∀ entry ∈ p.store.db.dataRowEvents, db.dataRowEventSeq < entry.id →
        ∃ e, e.Tells p.store.db entry ∧ (e ∈ p.store.sent ∨ e.id ∉ p.store.sent.map (·.id) ∧
          ∃ i, ∀ env, (LiveCall.step pf lag env p.store (p.request i)).1.sent =
            p.store.sent ++ [e]) := by
  intro p
  have hsound : LiveSound db.dataRowEventSeq p := liveSound_run hissued hcalls ticks
  refine ⟨hsound.sent.distinct, ?_, ?_⟩
  · intro e he
    exact (hsound.sent.told e (.inl he)).2
  · intro entry hentry hstart
    obtain ⟨e, htells, hsent | ⟨i, hi⟩⟩ := hsound.sent.complete entry hentry hstart
    · exact ⟨e, htells, .inl hsent⟩
    · refine ⟨e, htells, .inr ⟨(hsound.sent.apart i e hi).1, i, fun env => ?_⟩⟩
      rw [unsentIn] at hi
      rcases hrequest : p.request i with w | c
      · rw [hrequest] at hi
        rw [LiveCall.step, WriterCall.step_unsent hi]
        rfl
      · rw [hrequest] at hi
        cases hi

/-! ### What a stream shows -/

/-- The receiver of a stream that listens to the table. -/
def ListensTo (p : Pool ι LiveStore LiveCall) (i : ι) (c : StreamCall) (table : LoadedTable)
    (r : Receiver DataRowRealtimeEvent) : Prop :=
  p.request i = .stream { c with stage := .listening table r }

/-- What is true of everybody who listens. -/
def Listening (p : Pool ι LiveStore LiveCall) : Prop :=
  ∀ i c table r, ListensTo p i c table r → Heard p.store.sent r ∧
    table.appId = c.claims.appId ∧ Known p.store.db table ∧
      (c.console = true → c.claims.isAdmin = true)

variable {i : ι} {c : StreamCall} {table : LoadedTable} {r : Receiver DataRowRealtimeEvent}

theorem openStream_load (h : openStream pf db c = .ok table) :
    loadTable pf db c.claims.appId c.tableName = some table := by
  simp only [openStream, requireTable, Outcome.bind_eq_ok, Outcome.require_eq_ok] at h
  obtain ⟨_, -, t, hload, _, -, heq⟩ := h
  cases heq
  exact hload

theorem openStream_admin (h : openStream pf db c = .ok table)
    (hconsole : c.console = true) : c.claims.isAdmin = true := by
  simp only [openStream, Outcome.bind_eq_ok, Outcome.ensure_eq_ok] at h
  obtain ⟨_, hadmin, -⟩ := h
  simpa [hconsole] using hadmin

theorem step_store (h : LiveSound start p) (t : ι × Env) :
    (∃ more, (tick (LiveCall.step pf lag) p t).store.sent = p.store.sent ++ more) ∧
      TablesStay p.store.db (tick (LiveCall.step pf lag) p t).store.db := by
  rw [tick_store]
  rcases hrequest : p.request t.1 with w | c
  · rcases hunsent : w.unsent with _ | e
    · obtain ⟨hstore, -, -⟩ :=
        @WriterCall.step_change pf t.2 p.store w hunsent (h.carries t.1 w hrequest)
      rw [show (LiveCall.step pf lag t.2 p.store (.writer w)).1 = _ from hstore]
      exact ⟨⟨[], (List.append_nil _).symm⟩, step_tablesStay w.call⟩
    · rw [LiveCall.step, WriterCall.step_unsent hunsent]
      exact ⟨⟨[e], rfl⟩, .of_eq rfl⟩
  · exact ⟨⟨[], (List.append_nil _).symm⟩, .of_eq rfl⟩

theorem ListensTo.tick (h : ListensTo p i c table r) (t : ι × Env) :
    ListensTo (tick (LiveCall.step pf lag) p t) i c table
      (if i = t.1 then r.poll lag p.store.sent else r) := by
  unfold ListensTo at h ⊢
  split
  · rename_i hi
    subst hi
    rw [tick_request_self, h]
    rfl
  · rename_i hi
    rw [tick_request_of_ne p t hi, h]

theorem listensTo_of_tick {t : ι × Env}
    (h : ListensTo (Interleaving.tick (LiveCall.step pf lag) p t) i c table r) :
    (∃ r₀, ListensTo p i c table r₀ ∧ r = if i = t.1 then r₀.poll lag p.store.sent else r₀) ∨
      r = .subscribe p.store.sent ∧ openStream pf p.store.db c = .ok table := by
  rcases eq_or_ne i t.1 with rfl | hne
  · have hstep : (LiveCall.step pf lag t.2 p.store (p.request t.1)).2 =
        .stream { c with stage := .listening table r } := by
      rw [← tick_request_self]
      exact h
    rcases hrequest : p.request t.1 with w | c₀
    · rw [hrequest] at hstep
      cases hstep
    · obtain ⟨console, claims, tableName, stage⟩ := c
      obtain ⟨console₀, claims₀, tableName₀, stage₀⟩ := c₀
      rw [hrequest, LiveCall.step, LiveCall.stream.injEq] at hstep
      cases stage₀ with
      | received =>
        simp only [StreamCall.step] at hstep
        split at hstep
        · cases hstep
        · rename_i hopen
          cases hstep
          exact .inr ⟨rfl, hopen⟩
      | listening table₀ r₀ =>
        cases hstep
        exact .inl ⟨r₀, hrequest, (if_pos rfl).symm⟩
      | refused error => cases hstep
  · refine .inl ⟨r, ?_, (if_neg hne).symm⟩
    unfold ListensTo at h ⊢
    rwa [tick_request_of_ne p t hne] at h

theorem Listening.tick (hlistening : Listening p) (h : LiveSound start p) (t : ι × Env) :
    Listening (tick (LiveCall.step pf lag) p t) := by
  obtain ⟨⟨more, hsent⟩, hkeeps⟩ := @step_store _ pf lag _ _ _ h t
  intro i c table r hlistens
  rw [hsent]
  rcases listensTo_of_tick hlistens with ⟨r₀, hbefore, rfl⟩ | ⟨rfl, hopen⟩
  · obtain ⟨hheard, happ, hknown, hadmin⟩ := hlistening i c table r₀ hbefore
    refine ⟨?_, happ, hknown.keep hkeeps, hadmin⟩
    split
    · exact (hheard.poll lag).send more
    · exact hheard.send more
  · obtain ⟨hmem, happ, -⟩ := loadTable_some (openStream_load hopen)
    have hknown : Known p.store.db table := ⟨table, hmem, rfl, rfl, rfl⟩
    exact ⟨(heard_subscribe p.store.sent).send more, happ, hknown.keep hkeeps,
      openStream_admin hopen⟩

theorem listening_run (hissued : db.rowLog.Issued)
    (hcalls : ∀ i, (calls i).Received) (ticks : List (ι × Env)) :
    Listening (liveRun pf lag db calls ticks) := by
  have hstep : ∀ (p : Pool ι LiveStore LiveCall) t,
      LiveSound db.dataRowEventSeq p ∧ Listening p →
        LiveSound db.dataRowEventSeq (Interleaving.tick (LiveCall.step pf lag) p t) ∧
          Listening (Interleaving.tick (LiveCall.step pf lag) p t) :=
    fun _ t h => ⟨h.1.tick t, h.2.tick h.1 t⟩
  have hstart : Listening (⟨⟨db, []⟩, calls⟩ : Pool ι LiveStore LiveCall) := by
    intro i c table r hlistens
    have hreceived := hcalls i
    rw [show calls i = _ from hlistens] at hreceived
    cases hreceived
  exact (Transition.run_preserves hstep ⟨.received hissued hcalls, hstart⟩ ticks).2

/-- What has been sent stays sent, and who listens goes on, to the same subscription. -/
theorem listensTo_run (hsound : LiveSound start p) (h : ListensTo p i c table r)
    (ticks : List (ι × Env)) :
    (∃ more, (run (LiveCall.step pf lag) p ticks).store.sent = p.store.sent ++ more) ∧
      ∃ r', ListensTo (run (LiveCall.step pf lag) p ticks) i c table r' ∧ r'.opened = r.opened := by
  have hstep : ∀ (q : Pool ι LiveStore LiveCall) t,
      LiveSound start q ∧ (∃ more, q.store.sent = p.store.sent ++ more) ∧
        (∃ r', ListensTo q i c table r' ∧ r'.opened = r.opened) →
      LiveSound start (Interleaving.tick (LiveCall.step pf lag) q t) ∧
        (∃ more, (Interleaving.tick (LiveCall.step pf lag) q t).store.sent =
          p.store.sent ++ more) ∧
        ∃ r', ListensTo (Interleaving.tick (LiveCall.step pf lag) q t) i c table r' ∧
          r'.opened = r.opened := by
    rintro q t ⟨hq, ⟨more, hmore⟩, r', hr', hopened⟩
    obtain ⟨⟨more', hmore'⟩, -⟩ := @step_store _ pf lag _ _ _ hq t
    refine ⟨hq.tick t, ⟨more ++ more', ?_⟩, _, hr'.tick t, ?_⟩
    · rw [hmore', hmore, List.append_assoc]
    · split
      · rw [Receiver.opened_poll, hopened]
      · exact hopened
  exact (Transition.run_preserves hstep
    ⟨hsound, ⟨[], (List.append_nil _).symm⟩, r, h, rfl⟩ ticks).2

/-- **Whoever misses an event** was too far behind at some moment. -/
theorem behind_of_missed (hcalls : ∀ i, (calls i).Received)
    (ticks : List (ι × Env)) (h : ListensTo (liveRun pf lag db calls ticks) i c table r)
    (hmissed : r.missed ≠ 0) :
    ∃ earlier later r', ticks = earlier ++ later ∧
      ListensTo (liveRun pf lag db calls earlier) i c table r' ∧
        r'.Behind EVENT_CAPACITY (liveRun pf lag db calls earlier).store.sent := by
  induction ticks using List.reverseRecOn generalizing r with
  | nil =>
    have hreceived := hcalls i
    rw [show calls i = _ from h] at hreceived
    cases hreceived
  | append_singleton ticks t ih =>
    have hlast : liveRun pf lag db calls (ticks ++ [t]) =
        Interleaving.tick (LiveCall.step pf lag) (liveRun pf lag db calls ticks) t :=
      run_append ..
    rw [hlast] at h
    rcases listensTo_of_tick h with ⟨r₀, hbefore, rfl⟩ | ⟨rfl, -⟩
    · by_cases hbehind : r₀.Behind EVENT_CAPACITY (liveRun pf lag db calls ticks).store.sent
      · exact ⟨ticks, [t], r₀, rfl, hbefore, hbehind⟩
      · have hmissed₀ : r₀.missed ≠ 0 := by
          split at hmissed
          · rwa [missed_poll hbehind] at hmissed
          · exact hmissed
        obtain ⟨earlier, later, r', rfl, hr'⟩ := ih hbefore hmissed₀
        exact ⟨earlier, later ++ [t], r', List.append_assoc .., hr'⟩
    · exact absurd rfl hmissed

/-- Whether the caller may read the events of rows with this owner. -/
def StreamCall.Reads (c : StreamCall) (table : LoadedTable) (ownerUserId : Option String) : Prop :=
  c.claims.isAdmin = true ∨ canAccessRow c.claims table.accessPolicy ownerUserId .read = true

theorem shows_iff {e : DataRowRealtimeEvent} (hadmin : c.console = true → c.claims.isAdmin = true) :
    c.shows table e = true ↔ e.appId = c.claims.appId ∧ e.tableName = c.nameOf table ∧
      c.Reads table e.ownerUserId := by
  rw [StreamCall.shows, StreamCall.Reads, Bool.and_eq_true, Bool.and_eq_true, beq_iff_eq,
    beq_iff_eq, and_assoc, Bool.or_eq_true, Bool.or_eq_true, or_assoc]
  refine and_congr_right fun _ => and_congr_right fun _ => or_iff_right_of_imp fun hconsole => ?_
  exact .inl (hadmin hconsole)

/-- **A stream shows what was logged since it was opened.**  Each event that it shows is in the
    log, one that the caller may read, and comes once.  Who has asked for the table by the name
    that is stored, is up to date and has missed nothing has been shown every event that was
    logged since and that the caller may read, but for those that requests are about to send;
    only who was more than 256 events behind has missed any. -/
theorem streams_follow_the_log (pf : Platform) (lag : Lag EVENT_CAPACITY) {db : Db}
    (hissued : db.rowLog.Issued) {calls : ι → LiveCall} (hcalls : ∀ i, (calls i).Received)
    (before after : List (ι × Env))
    (hopen : ListensTo (liveRun pf lag db calls before) i c table r) :
    let opened := (liveRun pf lag db calls before).store.db.dataRowEventSeq
    let p := liveRun pf lag db calls (before ++ after)
    ∃ r', ListensTo p i c table r' ∧
      (let shown := r'.taken.filter (c.shows table)
      (shown.map (·.id)).Nodup ∧
      (∀ e ∈ shown, e.appId = c.claims.appId ∧ e.tableName = c.nameOf table ∧
        c.Reads table e.ownerUserId ∧
        ∃ entry ∈ p.store.db.dataRowEvents, e.Tells p.store.db entry) ∧
      (c.nameOf table = table.name → r'.missed = 0 → r'.next = p.store.sent.length →
        ∀ entry ∈ p.store.db.dataRowEvents, entry.tableId = table.id → opened < entry.id →
          ∃ e, e.Tells p.store.db entry ∧ (c.Reads table e.ownerUserId →
            e ∈ shown ∨ ∃ j, (p.request j).unsent = some e))) ∧
      (r'.missed ≠ 0 → ∃ earlier later r'', before ++ after = earlier ++ later ∧
        ListensTo (liveRun pf lag db calls earlier) i c table r'' ∧
          r''.Behind EVENT_CAPACITY (liveRun pf lag db calls earlier).store.sent) := by
  intro opened p
  have hbefore : LiveSound db.dataRowEventSeq (liveRun pf lag db calls before) :=
    liveSound_run hissued hcalls before
  have hsound : LiveSound db.dataRowEventSeq p := liveSound_run hissued hcalls (before ++ after)
  have hrun : p = run (LiveCall.step pf lag) (liveRun pf lag db calls before) after :=
    run_append ..
  obtain ⟨⟨more, hmore⟩, r', hr', hsame⟩ :=
    @listensTo_run _ pf lag _ _ _ _ _ _ _ hbefore hopen after
  rw [← hrun] at hmore hr'
  obtain ⟨hheard, -, -, hadmin⟩ := listening_run hissued hcalls before i c table r hopen
  obtain ⟨hheard', happ, hknown, -⟩ :=
    listening_run hissued hcalls (before ++ after) i c table r' hr'
  have hsent : ∀ e ∈ r'.taken.filter (c.shows table), e ∈ p.store.sent := fun e he =>
    List.mem_of_mem_drop (List.mem_of_mem_take (hheard'.sublist.subset (List.mem_of_mem_filter he)))
  refine ⟨r', hr', ⟨?_, ?_, ?_⟩, behind_of_missed hcalls (before ++ after) hr'⟩
  · refine hsound.sent.distinct.sublist (List.Sublist.map _ ?_)
    exact List.filter_sublist.trans
      (hheard'.sublist.trans ((List.take_sublist ..).trans (List.drop_sublist ..)))
  · intro e he
    obtain ⟨happ', hname, hreads⟩ := (shows_iff hadmin).mp (List.mem_filter.mp he).2
    exact ⟨happ', hname, hreads, (hsound.sent.told e (.inl (hsent e he))).2⟩
  · intro hname hmissed hnext entry hentry htable hafter
    have hstart : db.dataRowEventSeq < entry.id := hbefore.sent.start_le.trans_lt hafter
    obtain ⟨e, htells, hway⟩ := hsound.sent.complete entry hentry hstart
    refine ⟨e, htells, fun hreads => ?_⟩
    rcases hway with hsent | hunsent
    · refine .inl (List.mem_filter.mpr ⟨?_, ?_⟩)
      · rw [hheard'.taken_eq hmissed hnext, hmore, hsame,
          List.drop_append_of_le_length (hheard.opened_le.trans hheard.next_le)]
        rw [hmore] at hsent
        rcases List.mem_append.mp hsent with hold | hnew
        · have hle := hbefore.sent.id_le (.inl hold)
          rw [htells.id] at hle
          exact absurd hafter (Nat.not_lt.mpr hle)
        · exact List.mem_append_right _ hnew
      · obtain ⟨t, ht, hid, htapp, htname⟩ := htells.table
        obtain ⟨t', ht', hid', htapp', htname'⟩ := hknown
        obtain rfl := p.store.db.dataTables.eq_of_key_eq ht ht' (hid.trans (htable.trans hid'.symm))
        exact (shows_iff hadmin).mpr ⟨htapp.symm.trans (htapp'.trans happ),
          (htname.symm.trans htname').trans hname.symm, hreads⟩
    · exact .inr hunsent

end Runs

def noteListener : StreamCall := ⟨false, root, "notes", .received⟩

/-- One request creates a note; the other listens. -/
def noteAndListener : Bool → LiveCall
  | true => .writer
      { call := .request (.createRow ⟨root, "notes", { data := note "a" }, .received⟩) }
  | false => .stream noteListener

theorem noteAndListener_received (b : Bool) : (noteAndListener b).Received := by
  cases b
  · rfl
  · exact ⟨rfl, rfl⟩

theorem emptyNotesDb_issued : emptyNotesDb.rowLog.Issued := by
  have hrows : emptyNotesDb.rowLog.events.rows.isEmpty = true := by decide +kernel
  intro e he
  have hmem : e ∈ emptyNotesDb.rowLog.events.rows := he
  rw [List.isEmpty_iff.mp hrows] at hmem
  cases hmem

/-- The stream is opened. -/
def noteOpened : List (Bool × Env) := [(false, sampleEnv "a")]

/-- The note is created, what is logged is sent, and the listener polls. -/
def noteSent : List (Bool × Env) :=
  List.replicate 8 (true, sampleEnv "b") ++ [(false, sampleEnv "a")]

theorem note_sent_once :
    let p := liveRun asciiPlatform (.oldest EVENT_CAPACITY) emptyNotesDb noteAndListener
      (noteOpened ++ noteSent)
    p.store.sent.map (·.id) = [1] ∧ (p.store.sent.map (·.id)).Nodup :=
  ⟨by decide +kernel, (row_events_sent_once asciiPlatform (.oldest EVENT_CAPACITY)
    emptyNotesDb_issued noteAndListener_received (noteOpened ++ noteSent)).1⟩

theorem noteListener_listens : ∃ table r, ListensTo
    (liveRun asciiPlatform (.oldest EVENT_CAPACITY) emptyNotesDb noteAndListener noteOpened) false
      noteListener table r := by
  have hok : (openStream asciiPlatform emptyNotesDb noteListener).toOption.isSome = true := by
    decide +kernel
  rcases hopen : openStream asciiPlatform emptyNotesDb noteListener with e | table
  · rw [hopen] at hok
    cases hok
  · refine ⟨table, .subscribe [], ?_⟩
    have hstep : noteListener.step asciiPlatform (.oldest EVENT_CAPACITY) ⟨emptyNotesDb, []⟩ =
        { noteListener with stage := .listening table (.subscribe []) } := by
      simp only [StreamCall.step, noteListener] at hopen ⊢
      rw [hopen]
    exact congrArg LiveCall.stream hstep

/-- The run in which the note is created and sent. -/
def noteRun : Pool Bool LiveStore LiveCall :=
  liveRun asciiPlatform (.oldest EVENT_CAPACITY) emptyNotesDb noteAndListener
    (noteOpened ++ noteSent)

/-- Has the stream missed nothing and read all that was sent? -/
def LiveCall.upToDate (s : LiveStore) : LiveCall → Bool
  | .stream { stage := .listening _ r, .. } => r.missed == 0 && r.next == s.sent.length
  | _ => false

/-- Is the event in the log one of the table that the stream listens to? -/
def LiveCall.listensTo (entry : DataRowEvent) : LiveCall → Bool
  | .stream { stage := .listening table _, .. } => entry.tableId == table.id
  | _ => false

/-- The event of the note is shown. -/
theorem note_shown : ∃ table r, ListensTo noteRun false noteListener table r ∧
    ∃ e ∈ r.taken.filter (noteListener.shows table), e.id = 1 := by
  obtain ⟨table, r, hopen⟩ := noteListener_listens
  obtain ⟨r', hlistens, ⟨-, -, hcomplete⟩, -⟩ :=
    streams_follow_the_log asciiPlatform (.oldest EVENT_CAPACITY) emptyNotesDb_issued
      noteAndListener_received noteOpened noteSent hopen
  have hcurrent : (noteRun.request false).upToDate noteRun.store = true := by decide +kernel
  have hlogged : (noteRun.store.db.dataRowEvents.rows.any fun entry =>
      entry.id == 1 && (noteRun.request false).listensTo entry) = true := by decide +kernel
  have hquiet : ∀ i, (noteRun.request i).unsent.isNone = true := by decide +kernel
  rw [show noteRun.request false = _ from hlistens] at hcurrent hlogged
  simp only [LiveCall.upToDate, Bool.and_eq_true, beq_iff_eq] at hcurrent
  simp only [LiveCall.listensTo, List.any_eq_true, Bool.and_eq_true, beq_iff_eq] at hlogged
  obtain ⟨entry, hentry, hid, htable⟩ := hlogged
  have hopened : (liveRun asciiPlatform (.oldest EVENT_CAPACITY) emptyNotesDb noteAndListener
      noteOpened).store.db.dataRowEventSeq = 0 := by decide +kernel
  obtain ⟨e, htells, hshown⟩ := hcomplete rfl hcurrent.1 hcurrent.2 entry hentry htable
    (by rw [hopened, hid]; decide)
  refine ⟨table, r', hlistens, e, ?_, htells.id.trans hid⟩
  rcases hshown (.inl rfl) with hmem | ⟨j, hj⟩
  · exact hmem
  · have hnone := hquiet j
    rw [show (noteRun.request j).unsent = some e from hj] at hnone
    cases hnone

end Peanut

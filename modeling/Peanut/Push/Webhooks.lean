import Peanut.Push.Lifecycle

/-!
# The webhook of a push message

What the worker posts when a message has its final status: one request to the app the
message was queued for, if that app wants to hear of its messages at that moment.
The row of the message may be gone by then, and the app may have changed.
-/

namespace Peanut

open Relational

/-! ### The app of a message -/

/-- At some moment of the run the queue held this message for the app. -/
def QueuedFor (db : Db) (events : List PushEvent) (id : Nat) (appId : String) : Prop :=
  ∃ before, before <+: events ∧
    ∃ m ∈ (Transition.run PushSystem.step (.start db) before).db.pushQueue,
      m.id = id ∧ m.appId = appId

variable {db db' : Db}

theorem queuedFor_concat {events : List PushEvent} {event : PushEvent} {id : Nat}
    {appId : String} : QueuedFor db (events ++ [event]) id appId ↔
      QueuedFor db events id appId ∨
        ∃ m ∈ ((Transition.run PushSystem.step (.start db) events).step event).db.pushQueue,
          m.id = id ∧ m.appId = appId := by
  constructor
  · rintro ⟨before, hbefore, hqueued⟩
    rcases List.prefix_concat_iff.mp hbefore with rfl | hprefix
    · rw [Transition.run_append] at hqueued
      exact .inr hqueued
    · exact .inl ⟨before, hprefix, hqueued⟩
  · rintro (⟨before, hbefore, hqueued⟩ | hqueued)
    · exact ⟨before, hbefore.trans (List.prefix_append _ _), hqueued⟩
    · refine ⟨events ++ [event], List.prefix_refl _, ?_⟩
      rw [Transition.run_append]
      exact hqueued

/-- The item of the message the worker has in its hands or is about to announce. -/
def WorkerStage.named? : WorkerStage → Option PushQueueItem
  | .notifying item _ _ _ => some item
  | stage => stage.item?

/-! ### One step -/

/-- Every row of the one queue has its number and its app from a row of the other. -/
def RowsFrom (old new : Db) : Prop :=
  ∀ m ∈ new.pushQueue, ∃ n ∈ old.pushQueue, n.id = m.id ∧ n.appId = m.appId

theorem RowsFrom.of_eq {old new : Db} (h : new.pushQueue = old.pushQueue) : RowsFrom old new := by
  intro m hm
  rw [h] at hm
  exact ⟨m, hm, rfl, rfl⟩

theorem RowsFrom.updateWhere {p : PushMessage → Bool} {f : PushMessage → PushMessage}
    (hkey : ∀ m, (f m).id = m.id) (happ : ∀ m, (f m).appId = m.appId) :
    RowsFrom db { db with pushQueue := db.pushQueue.updateWhere p f hkey } := by
  intro m hm
  obtain ⟨n, hn, rfl⟩ := (KeyedTable.mem_updateWhere hkey).mp hm
  refine ⟨n, hn, ?_⟩
  split
  · exact ⟨(hkey n).symm, (happ n).symm⟩
  · exact ⟨rfl, rfl⟩

theorem PushMessage.appId_marked (env : Env) (itemId : Nat) (retryCount : Int) (mark : PushMark)
    (m : PushMessage) : (m.marked env itemId retryCount mark).appId = m.appId := by
  cases mark with
  | sent note failed => rfl
  | terminal error => rfl
  | failed error failed => rfl

variable {effects : List PushEffect} {stage : WorkerStage}

theorem PushRun.Moves.rowsFrom {e : WorkerEnv} {w : PushRun}
    (h : PushRun.Moves e db effects stage db' w) :
    RowsFrom db db' ∧ db'.pushQueueSeq = db.pushQueueSeq := by
  cases h with
  | reclaim => exact ⟨.updateWhere PushMessage.id_reclaimed fun _ => rfl, rfl⟩
  | claim id rest hclaim =>
    unfold claimPushItem at hclaim
    split at hclaim
    · cases hclaim
      exact ⟨.updateWhere (PushMessage.id_claimed e.env) fun _ => rfl, rfl⟩
    · cases hclaim
  | prune round endpoint dead rest hqueue hseq => exact ⟨.of_eq hqueue, hseq⟩
  | retry item mark rest =>
    exact ⟨.updateWhere (PushMessage.id_marked e.env item.id item.retryCount mark)
      (PushMessage.appId_marked e.env item.id item.retryCount mark), rfl⟩
  | settle item mark rest =>
    exact ⟨.updateWhere (PushMessage.id_marked e.env item.id item.retryCount mark)
      (PushMessage.appId_marked e.env item.id item.retryCount mark), rfl⟩
  | _ => exact ⟨.of_eq rfl, rfl⟩

theorem PushRun.Moves.named {e : WorkerEnv} {w : PushRun}
    (h : PushRun.Moves e db effects stage db' w) {item : PushQueueItem}
    (hitem : w.stage.named? = some item) :
    stage.named? = some item ∨ ∃ m ∈ db.pushQueue, m.item = item := by
  cases h with
  | load rest hfound =>
    cases hitem
    exact .inr ⟨_, (KeyedTable.find?_eq_some.mp hfound).1, rfl⟩
  | unmatched | matched | start | finish | join | prune | pruned | settle => exact .inl hitem
  | _ => cases hitem

theorem PushRun.Moves.webhook {e : WorkerEnv} {w : PushRun}
    (h : PushRun.Moves e db effects stage db' w) {id : Nat} {status : String}
    {post : Option WebhookPost}
    (heffects : w.effects = effects ++ [.webhook id status post]) :
    ∃ item error, stage.named? = some item ∧ item.id = id ∧
      post = pushWebhook db item.appId id status error := by
  have hlast : w.effects.getLast? = some (.webhook id status post) := by
    rw [heffects, List.getLast?_concat]
  have hlength : w.effects.length = effects.length + 1 := by
    rw [heffects, List.length_append, List.length_singleton]
  cases h with
  | notify item status' error rest =>
    rw [List.getLast?_concat, Option.some.injEq] at hlast
    cases hlast
    exact ⟨item, error, rfl, rfl, rfl⟩
  -- the other statements that are told of record something else
  | claim | matched | start | finish | retry | settle =>
    rw [List.getLast?_concat] at hlast
    cases hlast
  | _ => exact absurd hlength (Nat.ne_of_lt (Nat.lt_succ_self _))

/-! ### Runs -/

/-- Whatever has been queued is known under one app, which is the one of its row and
    of the item the worker has loaded. -/
structure AppKnown (Queued : Nat → String → Prop) (s : PushSystem) : Prop where
  rows : ∀ m ∈ s.db.pushQueue, Queued m.id m.appId
  numbered : ∀ id appId, Queued id appId → id ≤ s.db.pushQueueSeq
  unique : ∀ id a b, Queued id a → Queued id b → a = b
  named : ∀ item, s.worker.stage.named? = some item → Queued item.id item.appId

namespace AppKnown

variable {Queued : Nat → String → Prop} {s s' : PushSystem}

theorem keep (h : AppKnown Queued s) (hrows : RowsFrom s.db s'.db)
    (hseq : s'.db.pushQueueSeq = s.db.pushQueueSeq)
    (hnamed : ∀ item, s'.worker.stage.named? = some item →
      s.worker.stage.named? = some item ∨ ∃ m ∈ s.db.pushQueue, m.item = item) :
    AppKnown (fun id appId => Queued id appId ∨
      ∃ m ∈ s'.db.pushQueue, m.id = id ∧ m.appId = appId) s' := by
  have hold : ∀ id appId, (Queued id appId ∨
      ∃ m ∈ s'.db.pushQueue, m.id = id ∧ m.appId = appId) → Queued id appId := by
    rintro id appId (hqueued | ⟨m, hm, rfl, rfl⟩)
    · exact hqueued
    · obtain ⟨n, hn, hid, happ⟩ := hrows m hm
      rw [← hid, ← happ]
      exact h.rows n hn
  refine ⟨?_, ?_, ?_, ?_⟩
  · intro m hm
    exact .inr ⟨m, hm, rfl, rfl⟩
  · intro id appId hqueued
    rw [hseq]
    exact h.numbered id appId (hold id appId hqueued)
  · intro id a b ha hb
    exact h.unique id a b (hold id a ha) (hold id b hb)
  · intro item hitem
    rcases hnamed item hitem with hbefore | ⟨m, hm, rfl⟩
    · exact .inl (h.named item hbefore)
    · exact .inl (h.rows m hm)

theorem enqueued (h : AppKnown Queued s) {m : PushMessage}
    (hinsert : s.db.pushQueue.insert? { m with id := s.db.pushQueueSeq + 1 } =
      some s'.db.pushQueue) (hseq : s'.db.pushQueueSeq = s.db.pushQueueSeq + 1)
    (hworker : s'.worker = s.worker) :
    AppKnown (fun id appId => Queued id appId ∨
      ∃ n ∈ s'.db.pushQueue, n.id = id ∧ n.appId = appId) s' := by
  have hcases : ∀ id appId, (Queued id appId ∨
      ∃ n ∈ s'.db.pushQueue, n.id = id ∧ n.appId = appId) →
      Queued id appId ∨ id = s.db.pushQueueSeq + 1 ∧ m.appId = appId := by
    rintro id appId (hqueued | ⟨n, hn, rfl, rfl⟩)
    · exact .inl hqueued
    · rcases (KeyedTable.mem_insert? hinsert).mp hn with hbefore | rfl
      · exact .inl (h.rows n hbefore)
      · exact .inr ⟨rfl, rfl⟩
  have hfresh : ∀ appId, ¬ Queued (s.db.pushQueueSeq + 1) appId := by
    intro appId hqueued
    exact Nat.not_succ_le_self _ (h.numbered _ _ hqueued)
  refine ⟨?_, ?_, ?_, ?_⟩
  · intro n hn
    exact .inr ⟨n, hn, rfl, rfl⟩
  · intro id appId hqueued
    rw [hseq]
    rcases hcases id appId hqueued with hbefore | ⟨rfl, -⟩
    · exact Nat.le_succ_of_le (h.numbered id appId hbefore)
    · exact Nat.le_refl _
  · intro id a b ha hb
    rcases hcases id a ha with hbefore | ⟨rfl, rfl⟩
    · rcases hcases id b hb with hbefore' | ⟨rfl, -⟩
      · exact h.unique id a b hbefore hbefore'
      · exact absurd hbefore (hfresh a)
    · rcases hcases _ b hb with hbefore | ⟨-, rfl⟩
      · exact absurd hbefore (hfresh b)
      · rfl
  · intro item hitem
    rw [hworker] at hitem
    exact .inl (h.named item hitem)

/-- **One event.** -/
theorem step (h : AppKnown Queued s) (event : PushEvent) :
    AppKnown (fun id appId => Queued id appId ∨
      ∃ m ∈ (s.step event).db.pushQueue, m.id = id ∧ m.appId = appId) (s.step event) := by
  obtain ⟨db, w⟩ := s
  cases event with
  | tick e =>
    have hmove := PushRun.advance_moves e db w
    exact h.keep hmove.rowsFrom.1 hmove.rowsFrom.2 fun item hitem => hmove.named hitem
  | call =>
    apply h.keep
    · unfold PushSystem.step
      dsimp only
      split
      · exact .of_eq rfl
      · exact .of_eq rfl
    · unfold PushSystem.step
      dsimp only
      split
      · rfl
      · rfl
    · intro item hitem
      unfold PushSystem.step at hitem
      dsimp only at hitem
      split at hitem
      · cases hitem
      · exact .inl hitem
  | cleanup env =>
    refine h.keep ?_ rfl fun item hitem => .inl hitem
    intro m hm
    exact ⟨m, (KeyedTable.mem_deleteWhere.mp hm).1, rfl, rfl⟩
  | enqueue env c =>
    rcases c.step_queue env db with ⟨hqueue, hseq⟩ | ⟨hinsert, hseq⟩
    · exact h.keep (.of_eq hqueue) hseq fun item hitem => .inl hitem
    · exact h.enqueued hinsert hseq rfl
  | elsewhere db' => exact h.keep (.of_eq rfl) rfl fun item hitem => .inl hitem

/-- **Whole runs.** -/
theorem run (db : Db) (events : List PushEvent) :
    AppKnown (QueuedFor db events) (Transition.run PushSystem.step (.start db) events) := by
  induction events using List.reverseRecOn with
  | nil =>
    have hnone : ∀ id appId, ¬ QueuedFor db [] id appId := by
      rintro id appId ⟨before, hbefore, m, hm, -⟩
      rw [List.prefix_nil.mp hbefore] at hm
      cases hm
    refine ⟨?_, ?_, ?_, ?_⟩
    · intro m hm
      cases hm
    · intro id appId hqueued
      exact absurd hqueued (hnone id appId)
    · intro id a b ha
      exact absurd ha (hnone id a)
    · intro item hitem
      cases hitem
  | append_singleton events event ih =>
    have hiff : QueuedFor db (events ++ [event]) = fun id appId => QueuedFor db events id appId ∨
        ∃ m ∈ ((Transition.run PushSystem.step (.start db) events).step event).db.pushQueue,
          m.id = id ∧ m.appId = appId := by
      funext id appId
      exact propext queuedFor_concat
    rw [hiff, Transition.run_append]
    exact ih.step event

end AppKnown

/-! ### What is posted -/

/-- The app hears of the message under its URL if it has one that is not blank, and
    otherwise nothing is sent. -/
structure Tells (db : Db) (appId : String) (id : Nat) (status : String)
    (post : Option WebhookPost) : Prop where
  sent : ∀ app ∈ db.apps, app.id = appId →
    ∀ url, app.pushWebhookUrl = some url → isBlank url = false →
    ∃ p, post = some p ∧ p.url = url ∧ p.secret = app.webhookSecret ∧ p.appId = appId ∧
      p.messageId = id ∧ p.status = status
  silent : (∀ app ∈ db.apps, app.id = appId →
    ∀ url, app.pushWebhookUrl = some url → isBlank url = true) → post = none

theorem pushWebhook_tells (db : Db) (appId : String) (id : Nat) (status : String)
    (error : Option String) : Tells db appId id status (pushWebhook db appId id status error) where
  sent := by
    intro app happ hid url hurl hblank
    have hfind : db.apps.find? appId = some app := KeyedTable.find?_eq_some.mpr ⟨happ, hid⟩
    refine ⟨⟨url, app.webhookSecret, appId, id, status, error⟩, ?_, rfl, rfl, rfl, rfl, rfl⟩
    simp [pushWebhook, hfind, hurl, hblank]
  silent := by
    intro hsilent
    unfold pushWebhook
    split
    · rfl
    · rename_i app hfind
      obtain ⟨happ, hid⟩ := KeyedTable.find?_eq_some.mp hfind
      split
      · rfl
      · rename_i url hurl
        rw [if_pos (hsilent app happ hid url hurl)]

/-- **The life of a push message**: whatever is queued, subscribed and delivered in
    between, after every run of the worker and at every moment of it.  The next webhook
    call tells the app the message was queued for, and nobody else. -/
theorem push_lifecycle (db : Db) (events : List PushEvent) :
    PushLifecycle (Transition.run PushSystem.step (.start db) events) ∧
      ∀ e id status post,
        ((Transition.run PushSystem.step (.start db) events).step (.tick e)).worker.effects =
          (Transition.run PushSystem.step (.start db) events).worker.effects ++
            [.webhook id status post] →
        ∃ appId, QueuedFor db events id appId ∧
          (∀ other, QueuedFor db events id other → other = appId) ∧
          Tells (Transition.run PushSystem.step (.start db) events).db appId id status post := by
  refine ⟨(PushInvariant.run db events).lifecycle, ?_⟩
  intro e id status post heffects
  have hknown := AppKnown.run db events
  obtain ⟨item, error, hnamed, rfl, rfl⟩ := (PushRun.advance_moves e _ _).webhook heffects
  have hqueued := hknown.named item hnamed
  refine ⟨item.appId, hqueued, ?_, pushWebhook_tells _ _ _ _ error⟩
  intro other hother
  exact hknown.unique item.id other item.appId hother hqueued

/-! ### A message nobody subscribes to -/

/-- An app that hears of its messages. -/
def hearingApp : App :=
  { id := "shop", name := "shop", displayName := "Shop", workspaceId := "default"
    createdBy := none, createdAt := "2026-01-01 00:00:00", updatedAt := "2026-01-01 00:00:00"
    deletedAt := none, pushWebhookUrl := some "https://shop.example.com/push"
    webhookSecret := some "hush" }

def shopAda : User :=
  { id := "ada", appId := "shop", email := "ada@example.com", passwordHash := "$ada"
    isActive := true, isAdmin := true, adminRole := .owner, createdAt := "2026-01-01 00:00:00" }

/-- Ada has no subscription in it. -/
def hearingDb : Db :=
  { users := ⟨[shopAda], by decide⟩, apps := ⟨[hearingApp], by decide⟩ }

/-- A message for Ada is queued, and the worker gives it its final status. -/
def unmatchedMessage : List PushEvent :=
  .enqueue (sampleEnv "m")
      ⟨{ appId := "shop", claims := { sub := "ada", appId := "shop", exp := 0, isAdmin := true }
         title := "Hello", body := "World" }, .checked "default"⟩ ::
    .call :: List.replicate 6 (.tick { env := sampleEnv "w" })

/-- The message has its final status, and the app has not been told. -/
def failedMessage : PushSystem :=
  Transition.run PushSystem.step (.start hearingDb) unmatchedMessage

/-- The next statement tells the app, under its URL, that the message failed. -/
theorem unmatched_message_told :
    ∃ post, (failedMessage.step (.tick { env := sampleEnv "w" })).worker.effects =
        failedMessage.worker.effects ++ [.webhook 1 "failed" (some post)] ∧
      post.url = "https://shop.example.com/push" ∧ post.appId = "shop" ∧ post.messageId = 1 ∧
      post.status = "failed" := by
  obtain ⟨post, heffects⟩ : ∃ post,
      (failedMessage.step (.tick { env := sampleEnv "w" })).worker.effects =
        failedMessage.worker.effects ++ [.webhook 1 "failed" post] :=
    ⟨_, rfl⟩
  have hrows : (1, "shop") ∈ failedMessage.db.pushQueue.rows.map fun m => (m.id, m.appId) := by
    decide +kernel
  obtain ⟨m, hm, heq⟩ := List.mem_map.mp hrows
  rw [Prod.mk.injEq] at heq
  have happ : hearingApp ∈ failedMessage.db.apps := by
    have hsame : failedMessage.db.apps = hearingDb.apps := rfl
    rw [hsame]
    exact List.mem_singleton_self hearingApp
  obtain ⟨appId, -, honly, htells⟩ :=
    (push_lifecycle hearingDb unmatchedMessage).2 _ _ _ _ heffects
  obtain rfl := honly "shop" ⟨unmatchedMessage, List.prefix_refl _, m, hm, heq⟩
  obtain ⟨p, rfl, hurl, -, hpost⟩ :=
    htells.sent hearingApp happ rfl "https://shop.example.com/push" rfl (by decide)
  exact ⟨p, heffects, hurl, hpost⟩

end Peanut

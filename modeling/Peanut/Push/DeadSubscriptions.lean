import Peanut.Push.Broadcast

/-!
# Subscriptions that are gone

A delivery may tell that its subscription does not exist any more.  The worker
collects the endpoints of such deliveries, finds a user for each endpoint among the
subscriptions of the round, and deletes what that user has under the endpoint, in
whatever app.  That is the subscription the delivery was for when nobody else in the
round shares its endpoint and no other app has the same user under it.
-/

namespace Peanut

open Relational

/-! ### What should be removed, and what is -/

/-- A delivery to the subscription, in the app of its message, told that it is gone. -/
def IsGone (effects : List PushEffect) (s : PushSubscription) : Prop :=
  ∃ item result, .returned item result ∈ effects ∧ result.subscription = s ∧
    s.appId = item.appId ∧ result.outcome = some .subscriptionGone

/-- The subscriptions that are left are those no delivery has found to be gone. -/
def RemovesExactlyGone (before : Db) (after : PushSystem) : Prop :=
  ∀ s, s ∈ after.db.pushSubscriptions ↔
    s ∈ before.pushSubscriptions ∧ ¬ IsGone after.worker.effects s

/-- The unique index on the app, the user and the endpoint of a subscription. -/
def SubscriptionsDistinct (db : Db) : Prop :=
  ∀ s ∈ db.pushSubscriptions, ∀ s' ∈ db.pushSubscriptions,
    s.appId = s'.appId → s.userId = s'.userId → s.endpoint = s'.endpoint → s = s'

/-- The subscription is one of those the worker deletes. -/
def IsPruned (subs : List PushSubscription) (endpoints : List String) (s : PushSubscription) :
    Prop :=
  ∃ endpoint ∈ endpoints, endpointOwner subs endpoint = some s.userId ∧ s.endpoint = endpoint

theorem DeliveryResult.endpoint_of_gone {r : DeliveryResult}
    (h : r.outcome = some .subscriptionGone) : r.endpoint = r.subscription.endpoint := by
  obtain ⟨s, error⟩ := r
  cases error with
  | none => rfl
  | some e =>
    obtain ⟨cause, message⟩ := e
    cases cause with
    | panicked => cases h
    | _ => rfl

variable {results : List DeliveryResult}

theorem mem_deadSubscriptionEndpoints {endpoint : String} :
    endpoint ∈ deadSubscriptionEndpoints results ↔
      ∃ r ∈ results, r.outcome = some .subscriptionGone ∧ r.subscription.endpoint = endpoint := by
  unfold deadSubscriptionEndpoints
  rw [List.mem_map]
  constructor
  · rintro ⟨r, hr, rfl⟩
    obtain ⟨hmem, hgone⟩ := List.mem_filter.mp hr
    rw [beq_iff_eq] at hgone
    exact ⟨r, hmem, hgone, (DeliveryResult.endpoint_of_gone hgone).symm⟩
  · rintro ⟨r, hmem, hgone, rfl⟩
    exact ⟨r, List.mem_filter.mpr ⟨hmem, beq_iff_eq.mpr hgone⟩,
      DeliveryResult.endpoint_of_gone hgone⟩

theorem endpointOwner_eq (subs : List PushSubscription) (endpoint : String) :
    endpointOwner subs endpoint =
      (subs.filter fun s => s.endpoint == endpoint).getLast?.map (·.userId) := by
  unfold endpointOwner
  rw [← List.head?_reverse, ← List.filter_reverse, List.head?_filter]

/-! ### The round of a message -/

section Round

variable {before : Db} {item : PushQueueItem} {id : Nat}

/-- The deliveries that have ended are those of the message, to its subscriptions. -/
structure Reported (before : Db) (item : PushQueueItem) (effects : List PushEffect)
    (results : List DeliveryResult) : Prop where
  returned : ∀ i r, .returned i r ∈ effects ↔ i = item ∧ r ∈ results
  matched : ∀ r ∈ results, r.subscription ∈ before.pushSubscriptions.select (matchesItem item)

/-- Nothing has been delivered or deleted, and the row of the message has its target. -/
structure Untouched (before : Db) (item : PushQueueItem) (id : Nat) (db : Db)
    (effects : List PushEffect) : Prop where
  reported : Reported before item effects []
  subscriptions : db.pushSubscriptions = before.pushSubscriptions
  row : ∀ m, db.pushQueue.find? id = some m → m.item = item

/-- The endpoints of the deliveries that found their subscription gone have been pruned. -/
def Settled (before : Db) (item : PushQueueItem) (db : Db) (effects : List PushEffect) : Prop :=
  ∃ results, Reported before item effects results ∧
    ∀ s, s ∈ db.pushSubscriptions ↔ s ∈ before.pushSubscriptions ∧
      ¬ IsPruned (before.pushSubscriptions.select (matchesItem item))
        (deadSubscriptionEndpoints results) s

variable {effects : List PushEffect}

theorem Untouched.settled {db : Db}
    (h : Untouched before item id db effects) : Settled before item db effects := by
  refine ⟨[], h.reported, ?_⟩
  intro s
  rw [h.subscriptions]
  constructor
  · intro hs
    refine ⟨hs, ?_⟩
    rintro ⟨endpoint, hdead, -⟩
    cases hdead
  · exact And.left

/-- Where a worker stands that has taken up the message and nothing else. -/
def Pruning (before : Db) (item : PushQueueItem) (id : Nat) (s : PushSystem) : Prop :=
  match s.worker.stage with
  | .claiming ids => (ids = [id] ∧ Untouched before item id s.db s.worker.effects) ∨
      (ids = [] ∧ Settled before item s.db s.worker.effects)
  | .loading id' rest => id' = id ∧ rest = [] ∧ Untouched before item id s.db s.worker.effects
  | .matching item' rest => item' = item ∧ rest = [] ∧
      Untouched before item id s.db s.worker.effects
  | .delivering round rest => rest = [] ∧ round.item = item ∧
      round.subscriptions = before.pushSubscriptions.select (matchesItem item) ∧
      round.waiting ⊆ round.subscriptions ∧ round.inFlight ⊆ round.subscriptions ∧
      Reported before item s.worker.effects round.results ∧
      s.db.pushSubscriptions = before.pushSubscriptions
  | .pruning round dead rest => rest = [] ∧
      round.subscriptions = before.pushSubscriptions.select (matchesItem item) ∧
      Reported before item s.worker.effects round.results ∧
      ∃ done, deadSubscriptionEndpoints round.results = done ++ dead ∧
        ∀ row, row ∈ s.db.pushSubscriptions ↔ row ∈ before.pushSubscriptions ∧
          ¬ IsPruned round.subscriptions done row
  | .marking _ _ rest => rest = [] ∧ Settled before item s.db s.worker.effects
  | .notifying _ _ _ rest => rest = [] ∧ Settled before item s.db s.worker.effects
  | .finished => Settled before item s.db s.worker.effects
  | .failed => True
  | _ => False

/-- What the worker does about one endpoint. -/
def pruneEndpoint (db : Db) (subs : List PushSubscription) (endpoint : String) : Db :=
  match endpointOwner subs endpoint with
  | none => db
  | some userId => deleteSubscriptionByEndpoint db userId endpoint

theorem mem_pruneEndpoint {db : Db} {subs : List PushSubscription} {endpoint : String}
    {s : PushSubscription} :
    s ∈ (pruneEndpoint db subs endpoint).pushSubscriptions ↔
      s ∈ db.pushSubscriptions ∧ ¬ IsPruned subs [endpoint] s := by
  have hone : IsPruned subs [endpoint] s ↔
      endpointOwner subs endpoint = some s.userId ∧ s.endpoint = endpoint := by
    constructor
    · rintro ⟨endpoint', hmem, hpruned⟩
      rw [List.mem_singleton] at hmem
      exact hmem ▸ hpruned
    · intro hpruned
      exact ⟨endpoint, List.mem_singleton_self endpoint, hpruned⟩
  rw [hone]
  unfold pruneEndpoint
  cases endpointOwner subs endpoint with
  | none => simp
  | some userId =>
    simp only [deleteSubscriptionByEndpoint, KeyedTable.mem_deleteWhere, Option.some.injEq,
      Bool.and_eq_false_iff, beq_eq_false_iff_ne]
    constructor
    · rintro ⟨hmem, hno⟩
      refine ⟨hmem, ?_⟩
      rintro ⟨huser, hendpoint⟩
      exact hno.elim (fun h => h huser.symm) fun h => h hendpoint
    · rintro ⟨hmem, hno⟩
      refine ⟨hmem, ?_⟩
      by_cases huser : s.userId = userId
      · exact .inr fun hendpoint => hno ⟨huser.symm, hendpoint⟩
      · exact .inl huser

theorem Reported.append {results : List DeliveryResult}
    (h : Reported before item effects results) {f : PushEffect}
    (hf : ∀ i r, f ≠ .returned i r) : Reported before item (effects ++ [f]) results where
  returned := by
    intro i r
    rw [List.mem_append, h.returned, List.mem_singleton]
    exact or_iff_left (Ne.symm (hf i r))
  matched := h.matched

theorem Settled.append {db db' : Db} (h : Settled before item db effects)
    (hsubs : db'.pushSubscriptions = db.pushSubscriptions) {f : PushEffect}
    (hf : ∀ i r, f ≠ .returned i r) : Settled before item db' (effects ++ [f]) := by
  obtain ⟨results, hreported, hrows⟩ := h
  refine ⟨results, hreported.append hf, ?_⟩
  rw [hsubs]
  exact hrows

/-- **One tick** of the worker. -/
theorem Pruning.tick {e : WorkerEnv} {db db' : Db} {stage : WorkerStage} {w : PushRun}
    (h : Pruning before item id ⟨db, ⟨stage, effects⟩⟩)
    (hmove : PushRun.Moves e db effects stage db' w)
    (hprune : ∀ round endpoint dead rest, stage = .pruning round (endpoint :: dead) rest →
      db' = pruneEndpoint db round.subscriptions endpoint) :
    Pruning before item id ⟨db', w⟩ := by
  cases hmove with
  | reclaim => exact h.elim
  | select => exact h.elim
  | done =>
    rcases h with ⟨hids, -⟩ | ⟨-, hsettled⟩
    · cases hids
    · exact hsettled
  | skip id' rest =>
    rcases h with ⟨hids, huntouched⟩ | ⟨hids, -⟩
    · obtain ⟨-, rfl⟩ := List.cons.inj hids
      exact .inr ⟨rfl, huntouched.settled⟩
    · cases hids
  | claim id' rest hclaim =>
    rcases h with ⟨hids, huntouched⟩ | ⟨hids, -⟩
    · obtain ⟨rfl, rfl⟩ := List.cons.inj hids
      unfold claimPushItem at hclaim
      split at hclaim
      · cases hclaim
        refine ⟨rfl, rfl, huntouched.reported.append (by simp), huntouched.subscriptions, ?_⟩
        intro m hm
        rw [KeyedTable.find?_updateWhere] at hm
        obtain ⟨n, hn, rfl⟩ := Option.map_eq_some_iff.mp hm
        have hitem := huntouched.row n hn
        split
        · exact hitem
        · exact hitem
      · cases hclaim
    · cases hids
  | lost id' rest hnone => trivial
  | load rest hfound =>
    obtain ⟨rfl, rfl, huntouched⟩ := h
    exact ⟨huntouched.row _ hfound, rfl, huntouched⟩
  | unmatched item' rest =>
    obtain ⟨rfl, rfl, huntouched⟩ := h
    exact ⟨rfl, huntouched.settled⟩
  | matched item' rest hfound =>
    obtain ⟨rfl, rfl, huntouched⟩ := h
    rw [huntouched.subscriptions] at hfound
    exact ⟨rfl, rfl, hfound.symm, List.Subset.refl _, List.nil_subset _,
      huntouched.reported.append (by simp), huntouched.subscriptions⟩
  | start round rest hs =>
    obtain ⟨hrest, hitem, hsubs, hwaiting, hflight, hreported, hsame⟩ := h
    refine ⟨hrest, hitem, hsubs, ?_, ?_, hreported.append (by simp), hsame⟩
    · exact fun s hmem => hwaiting (List.eraseIdx_subset hmem)
    · refine List.append_subset.mpr ⟨hflight, ?_⟩
      intro s hmem
      rw [List.mem_singleton.mp hmem]
      exact hwaiting (List.mem_of_getElem? hs)
  | finish round rest hs =>
    obtain ⟨hrest, hitem, hsubs, hwaiting, hflight, hreported, hsame⟩ := h
    rename_i k s
    have hmember := hflight (List.mem_of_getElem? hs)
    refine ⟨hrest, hitem, hsubs, hwaiting, ?_, ?_, hsame⟩
    · exact fun s' hmem => hflight (List.eraseIdx_subset hmem)
    · constructor
      · intro i r
        rw [List.mem_append, hreported.returned, List.mem_singleton, List.mem_append,
          List.mem_singleton, PushEffect.returned.injEq, hitem]
        exact and_or_left.symm
      · intro r hr
        rcases List.mem_append.mp hr with hold | hnew
        · exact hreported.matched r hold
        · rw [List.mem_singleton.mp hnew, ← hsubs]
          exact hmember
  | join round rest hwaiting hflight =>
    obtain ⟨hrest, hitem, hsubs, -, -, hreported, hsame⟩ := h
    refine ⟨hrest, hsubs, hreported, [], rfl, ?_⟩
    intro row
    rw [hsame]
    refine ⟨fun hrow => ⟨hrow, ?_⟩, And.left⟩
    rintro ⟨endpoint, hdone, -⟩
    cases hdone
  | prune round endpoint dead rest hqueue hseq =>
    obtain ⟨hrest, hsubs, hreported, done, hdead, hrows⟩ := h
    refine ⟨hrest, hsubs, hreported, done ++ [endpoint], ?_, ?_⟩
    · rw [hdead, List.append_assoc, List.singleton_append]
    · intro row
      rw [hprune round endpoint dead rest rfl, mem_pruneEndpoint, hrows, and_assoc, ← not_or]
      have happend : IsPruned round.subscriptions (done ++ [endpoint]) row ↔
          IsPruned round.subscriptions done row ∨ IsPruned round.subscriptions [endpoint] row := by
        simp only [IsPruned, List.mem_append, or_and_right, exists_or]
      rw [happend]
  | pruned round rest =>
    obtain ⟨hrest, hsubs, hreported, done, hdead, hrows⟩ := h
    refine ⟨hrest, round.results, hreported, ?_⟩
    rw [hdead, List.append_nil, ← hsubs]
    exact hrows
  | retry item' mark rest hpending => exact .inr ⟨h.1, h.2.append rfl (by simp)⟩
  | settle item' mark rest hterminal => exact ⟨h.1, h.2.append rfl (by simp)⟩
  | notify item' status error rest => exact .inr ⟨h.1, h.2.append rfl (by simp)⟩
  | finished => exact h
  | failed => trivial

theorem Pruning.start {m : PushMessage} (hm : m ∈ before.pushQueue) :
    Pruning before m.item m.id ⟨before, ⟨.claiming [m.id], []⟩⟩ := by
  refine .inl ⟨rfl, ⟨?_, nofun⟩, rfl, ?_⟩
  · intro i r
    exact iff_of_false nofun fun h => nomatch h.2
  · intro n hn
    rw [KeyedTable.find?_eq_some.mpr ⟨hm, rfl⟩] at hn
    cases hn
    rfl

/-- **A run** of the worker over one message. -/
theorem Pruning.run {s : PushSystem} (h : Pruning before item id s) (ticks : List WorkerEnv) :
    Pruning before item id (Transition.run PushSystem.step s (ticks.map .tick)) := by
  induction ticks generalizing s with
  | nil => exact h
  | cons e ticks ih =>
    refine ih (s := s.step (.tick e)) ?_
    refine h.tick (PushRun.advance_moves e s.db s.worker) ?_
    intro round endpoint dead rest hstage
    unfold PushRun.advance pruneEndpoint
    rw [hstage]
    dsimp only
    cases endpointOwner round.subscriptions endpoint <;> rfl

end Round

/-! ### When the right ones are removed -/

/-- Nobody else in the round has the endpoint after the subscription, and no other app
    has its user under the endpoint. -/
def IsAloneAtEndpoint (db : Db) (item : PushQueueItem) (s : PushSubscription) : Prop :=
  ((db.pushSubscriptions.select (matchesItem item)).filter
      fun s' => s'.endpoint == s.endpoint).getLast? = some s ∧
    ∀ row ∈ db.pushSubscriptions, row.userId = s.userId → row.endpoint = s.endpoint →
      row.appId = s.appId

variable {item : PushQueueItem} {s : PushSubscription}

theorem appId_of_matchesItem (h : matchesItem item s = true) : s.appId = item.appId := by
  unfold matchesItem at h
  split at h
  · simp only [Bool.and_eq_true, beq_iff_eq] at h
    exact h.1.1.1
  · simp only [Bool.and_eq_true, beq_iff_eq] at h
    exact h.1

variable {effects : List PushEffect}

theorem Reported.isGone_iff {before : Db} (h : Reported before item effects results) :
    IsGone effects s ↔
      ∃ r ∈ results, r.subscription = s ∧ r.outcome = some .subscriptionGone := by
  constructor
  · rintro ⟨i, r, hmem, hsub, -, hgone⟩
    exact ⟨r, ((h.returned i r).mp hmem).2, hsub, hgone⟩
  · rintro ⟨r, hr, rfl, hgone⟩
    have hmatch := (KeyedTable.mem_select.mp (h.matched r hr)).2
    exact ⟨item, r, (h.returned item r).mpr ⟨rfl, hr⟩, rfl, appId_of_matchesItem hmatch, hgone⟩

theorem Reported.gone_mem {before : Db} (h : Reported before item effects results)
    (hs : IsGone effects s) :
    s ∈ before.pushSubscriptions ∧ s.appId = item.appId := by
  obtain ⟨r, hr, rfl, -⟩ := h.isGone_iff.mp hs
  obtain ⟨hmem, hmatch⟩ := KeyedTable.mem_select.mp (h.matched r hr)
  exact ⟨hmem, appId_of_matchesItem hmatch⟩

theorem Reported.isPruned_iff {before : Db} (h : Reported before item effects results)
    {subs : List PushSubscription} :
    IsPruned subs (deadSubscriptionEndpoints results) s ↔
      ∃ s', IsGone effects s' ∧ endpointOwner subs s'.endpoint = some s.userId ∧
        s.endpoint = s'.endpoint := by
  constructor
  · rintro ⟨endpoint, hdead, howner, hendpoint⟩
    obtain ⟨r, hr, hout, rfl⟩ := mem_deadSubscriptionEndpoints.mp hdead
    exact ⟨r.subscription, h.isGone_iff.mpr ⟨r, hr, rfl, hout⟩, howner, hendpoint⟩
  · rintro ⟨s', hs', howner, hendpoint⟩
    obtain ⟨r, hr, rfl, hout⟩ := h.isGone_iff.mp hs'
    exact ⟨_, mem_deadSubscriptionEndpoints.mpr ⟨r, hr, hout, rfl⟩, howner, hendpoint⟩

theorem IsAloneAtEndpoint.owner {db : Db} (h : IsAloneAtEndpoint db item s) :
    endpointOwner (db.pushSubscriptions.select (matchesItem item)) s.endpoint = some s.userId := by
  rw [endpointOwner_eq, h.1]
  rfl

/-- **The subscriptions that are gone are removed, and no others**, exactly if each of
    them is the last of the round with its endpoint and no other app has its user under
    that endpoint. -/
theorem dead_subscriptions_removed_iff {before : Db} {m : PushMessage}
    (hm : m ∈ before.pushQueue) (hdistinct : SubscriptionsDistinct before)
    (ticks : List WorkerEnv) (hdone : (processed before m.id ticks).worker.stage = .finished) :
    RemovesExactlyGone before (processed before m.id ticks) ↔
      ∀ s, IsGone (processed before m.id ticks).worker.effects s →
        IsAloneAtEndpoint before m.item s := by
  have hrun := (Pruning.start hm).run ticks
  unfold Pruning at hrun
  obtain ⟨results, hreported, hrows⟩ : Settled before m.item (processed before m.id ticks).db
      (processed before m.id ticks).worker.effects := by
    unfold processed at hdone
    rw [hdone] at hrun
    exact hrun
  generalize (processed before m.id ticks) = after at *
  constructor
  · intro hexact s hs
    obtain ⟨hmem, happ⟩ := hreported.gone_mem hs
    have hremoved : ∀ row ∈ before.pushSubscriptions,
        IsPruned (before.pushSubscriptions.select (matchesItem m.item))
          (deadSubscriptionEndpoints results) row ↔ IsGone after.worker.effects row := by
      intro row hrow
      have hboth := (hrows row).symm.trans (hexact row)
      simp only [hrow, true_and] at hboth
      exact not_iff_not.mp hboth
    obtain ⟨s', -, howner, hendpoint⟩ := hreported.isPruned_iff.mp ((hremoved s hmem).mpr hs)
    rw [← hendpoint] at howner
    refine ⟨?_, ?_⟩
    · -- the owner's last subscription is this one, by the unique index
      rw [endpointOwner_eq] at howner
      obtain ⟨last, hlast, huser⟩ := Option.map_eq_some_iff.mp howner
      obtain ⟨hround, hsame⟩ := List.mem_filter.mp (List.mem_of_getLast? hlast)
      obtain ⟨hmem', hmatch⟩ := KeyedTable.mem_select.mp hround
      rw [beq_iff_eq] at hsame
      rw [hlast, hdistinct last hmem' s hmem
        ((appId_of_matchesItem hmatch).trans happ.symm) huser hsame]
    · intro row hrow huser hsame
      have hrowPruned := hreported.isPruned_iff.mpr ⟨s, hs, huser ▸ howner, hsame⟩
      rw [(hreported.gone_mem ((hremoved row hrow).mp hrowPruned)).2, happ]
  · intro halone s
    have hiff : s ∈ before.pushSubscriptions →
        (IsPruned (before.pushSubscriptions.select (matchesItem m.item))
          (deadSubscriptionEndpoints results) s ↔ IsGone after.worker.effects s) := by
      intro hmem
      rw [hreported.isPruned_iff]
      constructor
      · rintro ⟨s', hs', hown, hendpoint⟩
        rw [(halone s' hs').owner, Option.some.injEq] at hown
        have happ := (halone s' hs').2 s hmem hown.symm hendpoint
        rw [hdistinct s hmem s' (hreported.gone_mem hs').1 happ hown.symm hendpoint]
        exact hs'
      · intro hs
        exact ⟨s, hs, (halone s hs).owner, rfl⟩
    rw [hrows]
    constructor
    · rintro ⟨hmem, hno⟩
      exact ⟨hmem, fun hs => hno ((hiff hmem).mpr hs)⟩
    · rintro ⟨hmem, hno⟩
      exact ⟨hmem, fun hs => hno ((hiff hmem).mp hs)⟩

/-! ### A browser and a phone, and a browser in two apps -/

/-- Ada, an administrator of the default app, has registered her browser in an app. -/
def adaBrowser (id : Nat) (appId : String) : PushSubscription :=
  { id := id, appId := appId, userId := "ada", endpoint := "https://push.example.com/1"
    p256dh := "key", auth := "secret", createdAt := "2026-01-01 00:00:00" }

/-- A message for Ada in the default app. -/
def adaMessage : PushMessage :=
  { newsInput.message (sampleEnv "a") with id := 1, appId := "default" }

/-- The message is queued, and Ada has these subscriptions. -/
def adaDb (subscriptions : KeyedTable PushSubscription (·.id)) : Db :=
  { users := ⟨[{ id := "ada", appId := "default", email := "ada@example.com"
                 passwordHash := "$ada", isActive := true, isAdmin := true, adminRole := .owner
                 createdAt := "2026-01-01 00:00:00" }], by simp⟩
    pushQueue := ⟨[adaMessage], by simp⟩
    pushQueueSeq := 1
    pushSubscriptions := subscriptions }

/-- The delivery finds that there is no such endpoint. -/
def goneTicks : List WorkerEnv :=
  List.replicate 11
    { env := sampleEnv "w", result := some { cause := .endpointNotFound, message := "not found" } }

/-- No delivery has found another subscription than this one to be gone. -/
def OnlyGone (s : PushSubscription) (effects : List PushEffect) : Bool :=
  effects.all fun
    | .returned _ r => r.subscription == s || r.outcome != some .subscriptionGone
    | _ => true

theorem eq_of_isGone {s s' : PushSubscription}
    (honly : OnlyGone s effects = true) (h : IsGone effects s') : s' = s := by
  obtain ⟨item, r, hmem, rfl, -, hgone⟩ := h
  have hreturned := List.all_eq_true.mp honly _ hmem
  simpa [hgone] using hreturned

/-- Ada's phone, in the same app. -/
def adaPhone : PushSubscription :=
  { adaBrowser 2 "default" with endpoint := "https://push.example.com/2" }

def bothDevices : KeyedTable PushSubscription (·.id) :=
  ⟨[adaBrowser 1 "default", adaPhone], by decide⟩

/-- There is no endpoint of the browser, and the phone gets the message. -/
def browserGoneTicks : List WorkerEnv :=
  goneTicks.take 6 ++ List.replicate 7 { env := sampleEnv "w" }

/-- The browser's subscription is removed, and the phone's stays. -/
theorem gone_browser_removed :
    (processed (adaDb bothDevices) adaMessage.id browserGoneTicks).db.pushSubscriptions.rows =
        [adaPhone] ∧
      RemovesExactlyGone (adaDb bothDevices)
        (processed (adaDb bothDevices) adaMessage.id browserGoneTicks) := by
  have hmem : adaMessage ∈ (adaDb bothDevices).pushQueue := List.mem_singleton_self adaMessage
  have honly : OnlyGone (adaBrowser 1 "default")
      (processed (adaDb bothDevices) adaMessage.id browserGoneTicks).worker.effects = true := by
    decide +kernel
  have hdevices : ∀ s ∈ (adaDb bothDevices).pushSubscriptions,
      s = adaBrowser 1 "default" ∨ s = adaPhone :=
    fun s hs => List.mem_pair.mp hs
  refine ⟨by decide +kernel, ?_⟩
  refine (dead_subscriptions_removed_iff hmem ?_ browserGoneTicks (by decide +kernel)).mpr ?_
  · intro s hs s' hs' _ _ hendpoint
    rcases hdevices s hs with rfl | rfl
    · rcases hdevices s' hs' with rfl | rfl
      · rfl
      · exact absurd hendpoint (by decide)
    · rcases hdevices s' hs' with rfl | rfl
      · exact absurd hendpoint (by decide)
      · rfl
  · intro s hs
    rw [eq_of_isGone honly hs]
    refine ⟨by decide +kernel, fun row hrow _ _ => ?_⟩
    rcases hdevices row hrow with rfl | rfl <;> rfl

/-- The same browser in a second app. -/
def twoBrowsers : KeyedTable PushSubscription (·.id) :=
  ⟨[adaBrowser 1 "default", adaBrowser 2 "shop"], by decide⟩

/-- The subscription in the other app is deleted with it. -/
theorem other_app_loses_subscription :
    SubscriptionsDistinct (adaDb twoBrowsers) ∧
      (processed (adaDb twoBrowsers) adaMessage.id goneTicks).worker.stage = .finished ∧
      ¬ RemovesExactlyGone (adaDb twoBrowsers)
        (processed (adaDb twoBrowsers) adaMessage.id goneTicks) := by
  have honly : OnlyGone (adaBrowser 1 "default")
      (processed (adaDb twoBrowsers) adaMessage.id goneTicks).worker.effects = true := by
    decide +kernel
  have hdeleted :
      (processed (adaDb twoBrowsers) adaMessage.id goneTicks).db.pushSubscriptions.rows = [] := by
    decide +kernel
  refine ⟨?_, by decide +kernel, ?_⟩
  · intro s hs s' hs' happ _ _
    rcases List.mem_pair.mp hs with rfl | rfl
    · rcases List.mem_pair.mp hs' with rfl | rfl
      · rfl
      · exact absurd happ (by decide)
    · rcases List.mem_pair.mp hs' with rfl | rfl
      · exact absurd happ (by decide)
      · rfl
  · intro hexact
    have hkept : adaBrowser 2 "shop" ∈
        (processed (adaDb twoBrowsers) adaMessage.id goneTicks).db.pushSubscriptions := by
      refine (hexact (adaBrowser 2 "shop")).mpr ⟨List.mem_pair.mpr (.inr rfl), ?_⟩
      intro hgone
      exact absurd (eq_of_isGone honly hgone) (by decide)
    rw [KeyedTable.mem_def, hdeleted] at hkept
    cases hkept

end Peanut

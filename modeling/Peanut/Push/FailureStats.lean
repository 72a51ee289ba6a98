import Mathlib.Data.List.Dedup
import Peanut.Library.Tally
import Peanut.Push.Worker

/-!
# Failure statistics

`list_queue_stats` of `api/push/queue.rs`.  The terminal failures are counted under their
trimmed texts and the failures of destinations under the texts as they are, and both are
trimmed once more when they are listed.  A destination's reason that is spelled in two ways
is then two entries.
-/

namespace Peanut

open Relational Tally

/-! ### The code -/

structure PushReasonStat where
  reason : String
  count : Nat
deriving DecidableEq, Repr

/-- A row of the query.  `failedDestinations` is the decoded `failed_destinations_json`. -/
structure PushQueueStatsRow where
  lastError : Option String
  partialFailureCount : Int
  failedDestinations : Option (List FailedDestinationRecord)
deriving DecidableEq, Repr

structure PushQueueStatsResponse where
  windowHours : Int
  limit : Nat
  retryScheduled : Nat
  retryOverdue : Nat
  terminalFailureReasons : List PushReasonStat
  destinationFailureReasons : List PushReasonStat
deriving DecidableEq, Repr

/-- The order in which a `HashMap` gives its entries. -/
structure MapOrder where
  walk : List (String × Nat) → List (String × Nat)
  perm : ∀ counts, (walk counts).Perm counts

/-- What is decoded, and nothing where there is nothing to decode. -/
def decodeFailedDestinations (raw : Option (List FailedDestinationRecord)) :
    List FailedDestinationRecord := raw.getD []

/-- The comparison of the sort: `left` does not go behind `right`. -/
def PushReasonStat.Before (left right : PushReasonStat) : Prop :=
  right.count < left.count ∨ left.count = right.count ∧ strLt right.reason left.reason = false

instance (left right : PushReasonStat) : Decidable (left.Before right) :=
  inferInstanceAs (Decidable (_ ∨ _ ∧ _))

/-- The entry of a text, unless it is blank. -/
def reasonStat (entry : String × Nat) : Option PushReasonStat :=
  let reason := trim entry.1
  if reason = "" ∨ entry.2 ≤ 0 then none else some { reason := reason, count := entry.2 }

def topPushReasonStats (counts : List (String × Nat)) (limit : Nat) : List PushReasonStat :=
  ((counts.filterMap reasonStat).insertionSort PushReasonStat.Before).take limit

/-- The texts that the loop counts as terminal failures. -/
def terminalTexts (rows : List PushQueueStatsRow) : List String :=
  rows.flatMap fun row =>
    if 0 < row.partialFailureCount then []
    else match row.lastError with
      | some lastError => if trim lastError = "" then [] else [trim lastError]
      | none => []

/-- The texts that the loop counts as failures of destinations. -/
def destinationTexts (rows : List PushQueueStatsRow) : List String :=
  rows.flatMap fun row =>
    if 0 < row.partialFailureCount then
      (decodeFailedDestinations row.failedDestinations).map (·.error)
    else []

def terminalFailureReasons (order : MapOrder) (rows : List PushQueueStatsRow) (limit : Nat) :
    List PushReasonStat := topPushReasonStats (order.walk (tally (terminalTexts rows))) limit

def destinationFailureReasons (order : MapOrder) (rows : List PushQueueStatsRow) (limit : Nat) :
    List PushReasonStat := topPushReasonStats (order.walk (tally (destinationTexts rows))) limit

def normalizePushQueueStatsWindowHours (value : Option Int) : Int :=
  match value with
  | some hours => if 0 < hours then min hours (24 * 7) else 24
  | none => 24

def normalizePushQueueStatsLimit (value : Option Nat) : Nat :=
  match value with
  | some limit => if 0 < limit then min limit 20 else 5
  | none => 5

/-- The messages an admin, or a user, asks about. -/
def PushMessage.isOwn (claims : Claims) (m : PushMessage) : Bool :=
  m.appId == claims.appId && (claims.isAdmin || m.userId == claims.sub)

def PushMessage.statsRow (m : PushMessage) : PushQueueStatsRow :=
  { lastError := m.lastError, partialFailureCount := m.partialFailureCount
    failedDestinations := m.failedDestinations }

/-- The messages processed since a time. -/
def queueStatsRows (db : Db) (claims : Claims) (start : String) : List PushQueueStatsRow :=
  (db.pushQueue.select fun m =>
    m.isOwn claims && m.processedAt.any fun time => !strLt time start).map (·.statsRow)

def retryBacklog (db : Db) (env : Env) (claims : Claims) : Nat × Nat :=
  let waiting := db.pushQueue.select fun m =>
    m.isOwn claims && m.status == "pending" && decide (0 < m.retryCount)
  (waiting.countP fun m => m.nextRetryAt.any fun time => strLt env.now time,
    waiting.countP fun m => m.nextRetryAt.any fun time => !strLt env.now time)

def listQueueStats (order : MapOrder) (env : Env) (db : Db) (claims : Claims)
    (windowHours : Option Int) (limit : Option Nat) : PushQueueStatsResponse :=
  let windowHours := normalizePushQueueStatsWindowHours windowHours
  let limit := normalizePushQueueStatsLimit limit
  let rows := queueStatsRows db claims (env.secondsAgo (windowHours * 3600))
  let (retryScheduled, retryOverdue) := retryBacklog db env claims
  { windowHours := windowHours, limit := limit, retryScheduled := retryScheduled
    retryOverdue := retryOverdue
    terminalFailureReasons := terminalFailureReasons order rows limit
    destinationFailureReasons := destinationFailureReasons order rows limit }

/-! ### What the lists should be -/

/-- The texts of the terminal failures, as they were stored. -/
def terminalFailures (rows : List PushQueueStatsRow) : List String :=
  rows.filterMap fun row => if 0 < row.partialFailureCount then none else row.lastError

/-- How many failures have a reason, whatever surrounds it. -/
def occurrences (failures : List String) (reason : String) : Nat :=
  failures.countP fun text => trim text == reason

/-- **The statistics count correctly.** -/
structure CountsFailures (failures : List String) (stats : List PushReasonStat) : Prop where
  distinct : (stats.map (·.reason)).Nodup
  trimmed : ∀ s ∈ stats, s.reason ≠ "" ∧ trim s.reason = s.reason
  sorted : stats.Pairwise PushReasonStat.Before
  counted : ∀ s ∈ stats, s.count = occurrences failures s.reason
  largest : ∀ text ∈ failures, trim text ≠ "" → trim text ∉ stats.map (·.reason) →
    ∀ s ∈ stats, occurrences failures (trim text) ≤ s.count

/-- All failures with a reason have the same text. -/
def SpelledOnce (failures : List String) (reason : String) : Prop :=
  ∀ text ∈ failures, ∀ text' ∈ failures, trim text = reason → trim text' = reason → text = text'

instance (failures : List String) (reason : String) : Decidable (SpelledOnce failures reason) :=
  inferInstanceAs (Decidable (∀ text ∈ failures, ∀ text' ∈ failures, _ → _ → text = text'))

/-- The reasons that are spelled in one way and occur at least as often as another. -/
def rivals (failures : List String) (reason : String) : List String :=
  (failures.map trim).dedup.filter fun other =>
    decide (other ≠ "" ∧ SpelledOnce failures other ∧
      occurrences failures reason ≤ occurrences failures other)

/-- Where a reason is spelled in two ways, enough others go before it. -/
def SpellingsHidden (failures : List String) (limit : Nat) : Prop :=
  ∀ text ∈ failures, trim text ≠ "" → ¬ SpelledOnce failures (trim text) →
    limit ≤ (rivals failures (trim text)).length

instance (failures : List String) (limit : Nat) : Decidable (SpellingsHidden failures limit) :=
  inferInstanceAs (Decidable (∀ text ∈ failures, _ → _ → _))

/-! ### Occurrences and spellings -/

theorem count_le_occurrences (failures : List String) (text : String) :
    failures.count text ≤ occurrences failures (trim text) := by
  refine List.countP_mono_left fun other _ h => ?_
  rw [beq_iff_eq] at h ⊢
  rw [h]

variable {failures : List String}

theorem count_lt_occurrences {text text' : String} (h : text' ∈ failures)
    (htrim : trim text' = trim text) (hne : text' ≠ text) :
    failures.count text < occurrences failures (trim text) := by
  induction failures with
  | nil => cases h
  | cons first failures ih =>
    rw [List.count_cons, occurrences, List.countP_cons]
    by_cases hfirst : first = text'
    · subst hfirst
      have hle := count_le_occurrences failures text
      rw [occurrences] at hle
      rw [if_neg (by simpa using hne), if_pos (by simpa using htrim)]
      omega
    · have hrest := ih ((List.mem_cons.mp h).resolve_left (Ne.symm hfirst))
      rw [occurrences] at hrest
      by_cases heq : first = text
      · subst heq
        simp only [beq_self_eq_true, if_true]
        omega
      · rw [if_neg (by simpa using heq)]
        omega

theorem count_eq_occurrences_iff {text : String} (h : text ∈ failures) :
    failures.count text = occurrences failures (trim text) ↔ SpelledOnce failures (trim text) := by
  constructor
  · intro heq
    have hsame : ∀ other ∈ failures, trim other = trim text → other = text := by
      intro other hother htrim
      by_contra hne
      have hlt := count_lt_occurrences hother htrim hne
      omega
    intro a ha b hb htrim htrim'
    rw [hsame a ha htrim, hsame b hb htrim']
  · intro honce
    refine List.countP_congr fun other hother => ?_
    rw [beq_iff_eq, beq_iff_eq]
    constructor
    · rintro rfl
      rfl
    · intro htrim
      exact honce other hother text h htrim rfl

/-! ### The order of the entries -/

namespace PushReasonStat

theorem before_total (a b : PushReasonStat) : a.Before b ∨ b.Before a := by
  rcases Nat.lt_trichotomy a.count b.count with hlt | heq | hgt
  · exact .inr (.inl hlt)
  · cases hreason : strLt b.reason a.reason with
    | false => exact .inl (.inr ⟨heq, hreason⟩)
    | true => exact .inr (.inr ⟨heq.symm, strLt_asymm hreason⟩)
  · exact .inl (.inl hgt)

theorem Before.trans {a b c : PushReasonStat} (h : a.Before b) (h' : b.Before c) : a.Before c := by
  rcases h with hlt | ⟨heq, hreason⟩
  · rcases h' with hlt' | ⟨heq', -⟩
    · exact .inl (Nat.lt_trans hlt' hlt)
    · exact .inl (heq' ▸ hlt)
  · rcases h' with hlt' | ⟨heq', hreason'⟩
    · exact .inl (heq.symm ▸ hlt')
    · exact .inr ⟨heq.trans heq', strLt_false_trans hreason hreason'⟩

instance : Std.Total Before := ⟨before_total⟩

instance : IsTrans PushReasonStat Before := ⟨fun _ _ _ => Before.trans⟩

theorem Before.count_le {a b : PushReasonStat} (h : a.Before b) : b.count ≤ a.count := by
  rcases h with hlt | ⟨heq, -⟩
  · exact Nat.le_of_lt hlt
  · exact Nat.le_of_eq heq.symm

end PushReasonStat

/-! ### The entries -/

section Entries

variable (order : MapOrder) (texts : List String)

/-- All entries, sorted. -/
def sortedStats : List PushReasonStat :=
  ((order.walk (tally texts)).filterMap reasonStat).insertionSort PushReasonStat.Before

variable {order texts}

variable {s : PushReasonStat}

theorem reasonStat_eq_some {entry : String × Nat} :
    reasonStat entry = some s ↔ trim entry.1 ≠ "" ∧ 0 < entry.2 ∧ s = ⟨trim entry.1, entry.2⟩ := by
  rw [reasonStat]
  split
  · next h =>
    refine iff_of_false (by simp) ?_
    rintro ⟨hne, hpos, -⟩
    rcases h with h | h
    · exact hne h
    · omega
  · next h =>
    rw [not_or, Nat.not_le] at h
    rw [Option.some.injEq, eq_comm]
    exact ⟨fun hs => ⟨h.1, h.2, hs⟩, fun hs => hs.2.2⟩

theorem mem_sortedStats : s ∈ sortedStats order texts ↔
    ∃ text ∈ texts, trim text ≠ "" ∧ s = ⟨trim text, texts.count text⟩ := by
  rw [sortedStats, List.mem_insertionSort, List.mem_filterMap]
  simp only [(order.perm _).mem_iff, reasonStat_eq_some]
  constructor
  · rintro ⟨⟨text, n⟩, hmem, hne, -, rfl⟩
    obtain ⟨htext, rfl⟩ := mem_tally.mp hmem
    exact ⟨text, htext, hne, rfl⟩
  · rintro ⟨text, htext, hne, rfl⟩
    exact ⟨(text, texts.count text), mem_tally.mpr ⟨htext, rfl⟩, hne, List.count_pos_iff.mpr htext,
      rfl⟩

theorem pairwise_sortedStats : (sortedStats order texts).Pairwise PushReasonStat.Before :=
  List.pairwise_insertionSort _ _

theorem sortedStats_apart : (sortedStats order texts).Pairwise fun a b =>
    a.reason = b.reason → ¬ SpelledOnce texts a.reason := by
  have hkeys : ((tally texts).map Prod.fst).Nodup := (counts_tally texts).keys
  have hwalk : (order.walk (tally texts)).Pairwise fun a b => a.1 ≠ b.1 :=
    List.pairwise_map.mp (((order.perm (tally texts)).map Prod.fst).nodup_iff.mpr hkeys)
  have hmem := fun entry (h : entry ∈ order.walk (tally texts)) =>
    (mem_tally.mp ((order.perm (tally texts)).mem_iff.mp h : (entry.1, entry.2) ∈ _)).1
  have hentries : ((order.walk (tally texts)).filterMap reasonStat).Pairwise fun a b =>
      a.reason = b.reason → ¬ SpelledOnce texts a.reason := by
    rw [List.pairwise_filterMap]
    refine hwalk.imp_of_mem ?_
    intro entry entry' hentry hentry' hne a ha b hb hreason honce
    obtain ⟨-, -, rfl⟩ := reasonStat_eq_some.mp ha
    obtain ⟨-, -, rfl⟩ := reasonStat_eq_some.mp hb
    exact hne (honce _ (hmem entry hentry) _ (hmem entry' hentry') rfl hreason.symm)
  refine ((List.perm_insertionSort _ _).pairwise_iff ?_).mpr hentries
  intro a b h hreason honce
  exact h hreason.symm (hreason ▸ honce)

/-- A listed entry counts all failures with its reason if there is one spelling of it. -/
theorem count_eq_iff (h : s ∈ sortedStats order texts) :
    s.count = occurrences texts s.reason ↔ SpelledOnce texts s.reason := by
  obtain ⟨text, htext, -, rfl⟩ := mem_sortedStats.mp h
  exact count_eq_occurrences_iff htext

theorem mem_rivals {reason other : String} : other ∈ rivals texts reason ↔
    (∃ text ∈ texts, trim text = other) ∧ other ≠ "" ∧ SpelledOnce texts other ∧
      occurrences texts reason ≤ occurrences texts other := by
  rw [rivals, List.mem_filter, List.mem_dedup, List.mem_map, decide_eq_true_iff]

variable {limit : Nat}

/-- Where there are `limit` rivals, nothing listed is counted less often. -/
theorem occurrences_le_of_rivals {reason : String} (hrivals : limit ≤ (rivals texts reason).length)
    (hs : s ∈ (sortedStats order texts).take limit) : occurrences texts reason ≤ s.count := by
  by_contra hlt
  rw [Nat.not_le] at hlt
  have hnodup : ((rivals texts reason).map fun other =>
      PushReasonStat.mk other (occurrences texts other)).Nodup := by
    refine ((List.nodup_dedup _).filter _).map fun a b heq => ?_
    injection heq
  have hsorted : (sortedStats order texts).Pairwise PushReasonStat.Before := pairwise_sortedStats
  have hlength := length_lt_of_mem_take hsorted hs hnodup ?_
  · rw [List.length_map] at hlength
    omega
  · intro entry hentry
    obtain ⟨other, hother, rfl⟩ := List.mem_map.mp hentry
    obtain ⟨⟨text, htext, rfl⟩, hne, honce, hle⟩ := mem_rivals.mp hother
    refine ⟨mem_sortedStats.mpr ⟨text, htext, hne, ?_⟩, ?_, ?_⟩
    · rw [(count_eq_occurrences_iff htext).mpr honce]
    · intro hbefore
      exact absurd (Nat.le_trans hle hbefore.count_le) (Nat.not_le.mpr hlt)
    · rintro rfl
      exact absurd hle (Nat.not_le.mpr hlt)

theorem mem_take_or_drop (h : s ∈ sortedStats order texts) (limit : Nat) :
    s ∈ (sortedStats order texts).take limit ∨ s ∈ (sortedStats order texts).drop limit := by
  rw [← List.mem_append, List.take_append_drop]
  exact h

theorem countsFailures_of_hidden (h : SpellingsHidden texts limit) :
    CountsFailures texts ((sortedStats order texts).take limit) := by
  have hmem : ∀ s ∈ (sortedStats order texts).take limit, s ∈ sortedStats order texts :=
    fun s hs => List.mem_of_mem_take hs
  -- What is listed has one spelling: of two, each would be counted less often than both.
  have honce : ∀ s ∈ (sortedStats order texts).take limit, SpelledOnce texts s.reason := by
    intro s hs
    by_contra hmulti
    obtain ⟨text, htext, hne, rfl⟩ := mem_sortedStats.mp (hmem s hs)
    have hle := occurrences_le_of_rivals (h text htext hne hmulti) hs
    have heq := Nat.le_antisymm (count_le_occurrences texts text) hle
    exact hmulti ((count_eq_occurrences_iff htext).mp heq)
  refine { distinct := ?_, trimmed := ?_, sorted := ?_, counted := ?_, largest := ?_ }
  · rw [List.Nodup, List.pairwise_map]
    refine (sortedStats_apart.sublist (List.take_sublist _ _)).imp_of_mem ?_
    intro a b ha _ hspelled hreason
    exact hspelled hreason (honce a ha)
  · intro s hs
    obtain ⟨text, -, hne, rfl⟩ := mem_sortedStats.mp (hmem s hs)
    exact ⟨hne, trim_trim text⟩
  · exact pairwise_sortedStats.sublist (List.take_sublist _ _)
  · intro s hs
    exact (count_eq_iff (hmem s hs)).mpr (honce s hs)
  · intro text htext hne homitted s hs
    by_cases hspelled : SpelledOnce texts (trim text)
    · have hentry : ⟨trim text, texts.count text⟩ ∈ sortedStats order texts :=
        mem_sortedStats.mpr ⟨text, htext, hne, rfl⟩
      rcases mem_take_or_drop hentry limit with htake | hdrop
      · exact absurd (List.mem_map.mpr ⟨_, htake, rfl⟩) homitted
      · rw [← (count_eq_occurrences_iff htext).mpr hspelled]
        exact (rel_of_mem_take_of_mem_drop pairwise_sortedStats hs hdrop).count_le
    · exact occurrences_le_of_rivals (h text htext hne hspelled) hs

theorem hidden_of_countsFailures (h : CountsFailures texts ((sortedStats order texts).take limit)) :
    SpellingsHidden texts limit := by
  intro text htext hne hmulti
  have honce : ∀ s ∈ (sortedStats order texts).take limit, SpelledOnce texts s.reason :=
    fun s hs => (count_eq_iff (List.mem_of_mem_take hs)).mp (h.counted s hs)
  have homitted : trim text ∉ ((sortedStats order texts).take limit).map (·.reason) := by
    intro hlisted
    obtain ⟨s, hs, hreason⟩ := List.mem_map.mp hlisted
    exact hmulti (hreason ▸ honce s hs)
  -- As an entry is left out, `limit` entries are listed, and all of them are rivals.
  have hlength : (((sortedStats order texts).take limit).map (·.reason)).length = limit := by
    have hentry : ⟨trim text, texts.count text⟩ ∈ sortedStats order texts :=
      mem_sortedStats.mpr ⟨text, htext, hne, rfl⟩
    rcases mem_take_or_drop hentry limit with htake | hdrop
    · exact absurd (List.mem_map.mpr ⟨_, htake, rfl⟩) homitted
    · have hpos := List.length_pos_of_mem hdrop
      rw [List.length_drop] at hpos
      rw [List.length_map, List.length_take]
      omega
  have hsubset : ((sortedStats order texts).take limit).map (·.reason) ⊆
      rivals texts (trim text) := by
    intro reason hreason
    obtain ⟨s, hs, rfl⟩ := List.mem_map.mp hreason
    obtain ⟨text', htext', hne', hs'⟩ := mem_sortedStats.mp (List.mem_of_mem_take hs)
    have hle := h.largest text htext hne homitted s hs
    rw [h.counted s hs] at hle
    exact mem_rivals.mpr ⟨⟨text', htext', by rw [hs']⟩, (h.trimmed s hs).1, honce s hs, hle⟩
  have hsubperm := (List.subperm_of_subset h.distinct hsubset).length_le
  rw [hlength] at hsubperm
  exact hsubperm

theorem countsFailures_iff :
    CountsFailures texts ((sortedStats order texts).take limit) ↔ SpellingsHidden texts limit :=
  ⟨hidden_of_countsFailures, countsFailures_of_hidden⟩

end Entries

/-! ### The two lists -/

theorem terminalTexts_eq (rows : List PushQueueStatsRow) :
    terminalTexts rows = ((terminalFailures rows).map trim).filter (· ≠ "") := by
  induction rows with
  | nil => rfl
  | cons row rows ih =>
    rw [terminalTexts, List.flatMap_cons, ← terminalTexts, ih]
    simp only [terminalFailures, List.filterMap_cons]
    by_cases hpartial : 0 < row.partialFailureCount
    · rw [if_pos hpartial, if_pos hpartial, List.nil_append]
    · rw [if_neg hpartial, if_neg hpartial]
      cases hlast : row.lastError with
      | none => rfl
      | some lastError =>
        by_cases hblank : trim lastError = ""
        · simp [hblank]
        · simp [hblank]

theorem occurrences_trimmed (failures : List String) {reason : String} (h : reason ≠ "") :
    occurrences ((failures.map trim).filter (· ≠ "")) reason = occurrences failures reason := by
  rw [occurrences, List.countP_filter, List.countP_map, occurrences]
  refine List.countP_congr fun text _ => ?_
  simp only [Function.comp_apply, trim_trim, Bool.and_eq_true, beq_iff_eq, decide_eq_true_iff]
  constructor
  · rintro ⟨heq, -⟩
    exact heq
  · rintro rfl
    exact ⟨rfl, h⟩

theorem spelledOnce_trimmed (failures : List String) (reason : String) :
    SpelledOnce ((failures.map trim).filter (· ≠ "")) reason := by
  have htrimmed : ∀ text ∈ (failures.map trim).filter (· ≠ ""), trim text = text := by
    intro text htext
    obtain ⟨failure, -, rfl⟩ := List.mem_map.mp (List.mem_of_mem_filter htext)
    exact trim_trim failure
  intro text htext text' htext' hreason hreason'
  rw [← htrimmed text htext, hreason, ← hreason', htrimmed text' htext']

theorem spellingsHidden_of_spelledOnce
    (h : ∀ text ∈ failures, SpelledOnce failures (trim text)) (limit : Nat) :
    SpellingsHidden failures limit :=
  fun text htext _ hmulti => absurd (h text htext) hmulti

theorem countsFailures_terminal (order : MapOrder) (rows : List PushQueueStatsRow) (limit : Nat) :
    CountsFailures (terminalFailures rows) (terminalFailureReasons order rows limit) := by
  have hhidden : SpellingsHidden (terminalTexts rows) limit := by
    refine spellingsHidden_of_spelledOnce (fun text _ => ?_) limit
    rw [terminalTexts_eq]
    exact spelledOnce_trimmed _ _
  have h : CountsFailures (terminalTexts rows) (terminalFailureReasons order rows limit) :=
    countsFailures_of_hidden hhidden
  rw [terminalTexts_eq] at h
  refine { distinct := h.distinct, trimmed := h.trimmed, sorted := h.sorted
           counted := ?_, largest := ?_ }
  · intro s hs
    rw [h.counted s hs, occurrences_trimmed _ (h.trimmed s hs).1]
  · intro text htext hne homitted s hs
    have hmem : trim text ∈ ((terminalFailures rows).map trim).filter (· ≠ "") :=
      List.mem_filter.mpr ⟨List.mem_map.mpr ⟨text, htext, rfl⟩, by simpa using hne⟩
    have hle := h.largest (trim text) hmem (by rwa [trim_trim]) (by rwa [trim_trim]) s hs
    rwa [trim_trim, occurrences_trimmed _ hne] at hle

theorem countsFailures_destination {order : MapOrder} {rows : List PushQueueStatsRow}
    {limit : Nat} : CountsFailures (destinationTexts rows)
      (destinationFailureReasons order rows limit) ↔
        SpellingsHidden (destinationTexts rows) limit :=
  countsFailures_iff

/-- **The lists count the failures exactly when the spellings of a destination's reason do not
show.** -/
theorem queue_stats_count (order : MapOrder) (rows : List PushQueueStatsRow) (limit : Nat) :
    (CountsFailures (terminalFailures rows) (terminalFailureReasons order rows limit) ∧
      CountsFailures (destinationTexts rows) (destinationFailureReasons order rows limit)) ↔
        SpellingsHidden (destinationTexts rows) limit := by
  rw [countsFailures_destination]
  exact ⟨fun h => h.2, fun h => ⟨countsFailures_terminal order rows limit, h⟩⟩

def entriesInOrder : MapOrder := ⟨fun counts => counts, fun _ => List.Perm.refl _⟩

/-- Two messages, each with one failed destination. -/
def timeoutRows : List PushQueueStatsRow :=
  [{ lastError := some "partial delivery failures: https://a.test: timeout"
     partialFailureCount := 1
     failedDestinations := some [{ endpoint := "https://a.test", error := "timeout" }] },
   { lastError := some "partial delivery failures: https://b.test: timeout "
     partialFailureCount := 1
     failedDestinations := some [{ endpoint := "https://b.test", error := "timeout " }] }]

/-- The two failures are listed as two reasons with one text. -/
theorem queue_stats_count_split :
    destinationFailureReasons entriesInOrder timeoutRows 5 =
        [{ reason := "timeout", count := 1 }, { reason := "timeout", count := 1 }] ∧
      occurrences (destinationTexts timeoutRows) "timeout" = 2 ∧
      ¬ CountsFailures (destinationTexts timeoutRows)
        (destinationFailureReasons entriesInOrder timeoutRows 5) := by
  have hlist : destinationFailureReasons entriesInOrder timeoutRows 5 =
      [{ reason := "timeout", count := 1 }, { reason := "timeout", count := 1 }] := by
    decide
  refine ⟨hlist, by decide, ?_⟩
  intro h
  have hdistinct := h.distinct
  rw [hlist] at hdistinct
  exact absurd hdistinct (by decide)

theorem listQueueStats_count (order : MapOrder) (env : Env) (db : Db) (claims : Claims)
    (windowHours : Option Int) (limit : Option Nat) :
    let response := listQueueStats order env db claims windowHours limit
    let rows := queueStatsRows db claims (env.secondsAgo (response.windowHours * 3600))
    CountsFailures (terminalFailures rows) response.terminalFailureReasons ∧
      (CountsFailures (destinationTexts rows) response.destinationFailureReasons ↔
        SpellingsHidden (destinationTexts rows) response.limit) :=
  ⟨countsFailures_terminal order _ _, countsFailures_destination⟩

end Peanut

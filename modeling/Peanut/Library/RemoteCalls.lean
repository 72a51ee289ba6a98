import Mathlib.Data.List.Basic

/-!
# Remote calls over two queues

A client numbers its calls and goes on without waiting for them.  A server takes the
calls from one queue, one at a time, and puts its answers with their numbers into
another; an answer that comes out there settles the call of its number.  However calls,
service and answers interleave, the calls are served in the order in which they were
made, and each is settled once, with its own answer (`Exchange.Orderly`).
-/

universe u v w

namespace RemoteCalls

variable {ρ : Type u} {α : Type v} {σ : Type w}

/-! ### One call after another -/

section ServeAll

variable (serve : σ → ρ → σ × α)

/-- The store after the calls, and the answers. -/
def serveAll : σ → List ρ → σ × List α
  | s, [] => (s, [])
  | s, r :: rs =>
      let rest := serveAll (serve s r).1 rs
      (rest.1, (serve s r).2 :: rest.2)

theorem serveAll_concat (s : σ) (rs : List ρ) (r : ρ) :
    serveAll serve s (rs ++ [r]) =
      ((serve (serveAll serve s rs).1 r).1,
        (serveAll serve s rs).2 ++ [(serve (serveAll serve s rs).1 r).2]) := by
  induction rs generalizing s with
  | nil => rfl
  | cons first rs ih =>
    rw [List.cons_append, serveAll, ih, serveAll, List.cons_append]

@[simp] theorem length_serveAll (s : σ) (rs : List ρ) :
    (serveAll serve s rs).2.length = rs.length := by
  induction rs generalizing s with
  | nil => rfl
  | cons r rs ih => rw [serveAll, List.length_cons, List.length_cons, ih]

/-- What every call keeps holds after all of them. -/
theorem serveAll_preserves {serve : σ → ρ → σ × α} {P : σ → Prop}
    (hstep : ∀ s r, P s → P (serve s r).1) {s : σ} (hs : P s) (rs : List ρ) :
    P (serveAll serve s rs).1 := by
  induction rs generalizing s with
  | nil => exact hs
  | cons r rs ih => exact ih (hstep s r hs)

end ServeAll

/-! ### The exchange -/

/-- The calls made so far, what is in flight in either direction, the numbers of the
    calls that wait for an answer, and the answers that came. -/
structure Exchange (ρ : Type u) (α : Type v) (σ : Type w) where
  issued : List ρ
  requests : List (ρ × Nat)
  responses : List (α × Nat)
  waiting : List Nat
  settled : List (α × Nat)
  store : σ

namespace Exchange

def start (s : σ) : Exchange ρ α σ := ⟨[], [], [], [], [], s⟩

def call (x : Exchange ρ α σ) (r : ρ) : Exchange ρ α σ :=
  { x with
    issued := x.issued ++ [r]
    requests := x.requests ++ [(r, x.issued.length)]
    waiting := x.waiting ++ [x.issued.length] }

def serveNext (serve : σ → ρ → σ × α) (x : Exchange ρ α σ) : Exchange ρ α σ :=
  match x.requests with
  | [] => x
  | (r, n) :: rest =>
      { x with
        requests := rest
        responses := x.responses ++ [((serve x.store r).2, n)]
        store := (serve x.store r).1 }

def receive (x : Exchange ρ α σ) : Exchange ρ α σ :=
  match x.responses with
  | [] => x
  | (a, n) :: rest =>
      if n ∈ x.waiting then
        { x with
          responses := rest
          waiting := x.waiting.erase n
          settled := x.settled ++ [(a, n)] }
      else { x with responses := rest }

/-- The calls in the queue are those that were not served, and the answers, in flight or
    not, those of the calls that were, all under the numbers of their calls. -/
structure Orderly (serve : σ → ρ → σ × α) (s : σ) (served : List ρ) (x : Exchange ρ α σ) :
    Prop where
  issued_eq : x.issued = served ++ x.requests.map Prod.fst
  requests_eq : x.requests = (x.requests.map Prod.fst).zipIdx served.length
  answers_eq : x.settled ++ x.responses = (serveAll serve s served).2.zipIdx
  waiting_eq : x.waiting = List.range' x.settled.length (x.issued.length - x.settled.length)
  store_eq : x.store = (serveAll serve s served).1

namespace Orderly

variable {serve : σ → ρ → σ × α} {s : σ} {served : List ρ} {x : Exchange ρ α σ}

theorem of_start (s : σ) : Orderly serve s [] (start s : Exchange ρ α σ) :=
  ⟨rfl, rfl, rfl, rfl, rfl⟩

theorem answered (h : Orderly serve s served x) :
    x.settled.length + x.responses.length = served.length := by
  have hlength := congrArg List.length h.answers_eq
  rwa [List.length_append, List.length_zipIdx, length_serveAll] at hlength

theorem issued_length (h : Orderly serve s served x) :
    x.issued.length = served.length + x.requests.length := by
  rw [h.issued_eq, List.length_append, List.length_map]

/-- The next call to be served is the first that was not. -/
theorem number_of_request (h : Orderly serve s served x) {r : ρ} {n : Nat}
    {rest : List (ρ × Nat)} (hx : x.requests = (r, n) :: rest) : n = served.length := by
  have heq := h.requests_eq
  rw [hx, List.map_cons, List.zipIdx_cons, List.cons.injEq, Prod.mk.injEq] at heq
  exact heq.1.2

/-- The next answer to come is that of the first call that waits. -/
theorem number_of_response (h : Orderly serve s served x) {a : α} {n : Nat}
    {rest : List (α × Nat)} (hx : x.responses = (a, n) :: rest) : n = x.settled.length := by
  have hget := congrArg (fun l => l[x.settled.length]?) h.answers_eq
  simp only [hx, List.getElem?_append_right (Nat.le_refl _), Nat.sub_self, List.getElem?_cons_zero,
    List.getElem?_zipIdx, Nat.zero_add] at hget
  obtain ⟨a', -, heq⟩ := Option.map_eq_some_iff.mp hget.symm
  exact (Prod.mk.inj heq).2.symm

theorem call (h : Orderly serve s served x) (r : ρ) : Orderly serve s served (x.call r) where
  issued_eq := by
    simp only [Exchange.call, List.map_append, List.map_cons, List.map_nil]
    rw [h.issued_eq, List.append_assoc]
  requests_eq := by
    simp only [Exchange.call, List.map_append, List.map_cons, List.map_nil, List.zipIdx_append,
      List.length_map, List.zipIdx_singleton]
    rw [← h.requests_eq, h.issued_length]
  answers_eq := h.answers_eq
  waiting_eq := by
    have hle : x.settled.length ≤ x.issued.length := by
      have := h.answered
      have := h.issued_length
      omega
    simp only [Exchange.call, List.length_append, List.length_singleton]
    rw [h.waiting_eq, Nat.succ_sub hle, List.range'_concat, Nat.one_mul,
      Nat.add_sub_of_le hle]
  store_eq := h.store_eq

/-- **One more call is served**, or there is none. -/
theorem serveNext (h : Orderly serve s served x) :
    x.requests = [] ∧ x.serveNext serve = x ∨
      ∃ r n rest, x.requests = (r, n) :: rest ∧
        Orderly serve s (served ++ [r]) (x.serveNext serve) := by
  cases hx : x.requests with
  | nil => exact .inl ⟨rfl, by rw [Exchange.serveNext, hx]⟩
  | cons first rest =>
    obtain ⟨r, n⟩ := first
    have hn := h.number_of_request hx
    have hrest : rest = (rest.map Prod.fst).zipIdx (served.length + 1) := by
      have heq := h.requests_eq
      rw [hx, List.map_cons, List.zipIdx_cons, List.cons.injEq] at heq
      exact heq.2
    refine .inr ⟨r, n, rest, rfl, ?_⟩
    rw [Exchange.serveNext, hx]
    refine ⟨?_, ?_, ?_, h.waiting_eq, ?_⟩
    · rw [h.issued_eq, hx, List.map_cons, List.append_assoc, List.singleton_append]
    · rwa [List.length_append, List.length_singleton]
    · simp only [serveAll_concat, List.zipIdx_append, length_serveAll, List.zipIdx_singleton]
      rw [← List.append_assoc, h.answers_eq, h.store_eq, hn, Nat.zero_add]
    · simp only [serveAll_concat]
      rw [h.store_eq]

/-- **The first call that waits gets its answer**, or there is none in flight. -/
theorem receive (h : Orderly serve s served x) : Orderly serve s served x.receive := by
  cases hx : x.responses with
  | nil =>
    rwa [Exchange.receive, hx]
  | cons first rest =>
    obtain ⟨a, n⟩ := first
    have hn := h.number_of_response hx
    have hlt : x.settled.length < x.issued.length := by
      have hanswered := h.answered
      have hissued := h.issued_length
      rw [hx, List.length_cons] at hanswered
      omega
    have hwaiting : x.waiting = n :: List.range' (n + 1) (x.issued.length - (n + 1)) := by
      rw [h.waiting_eq, hn, ← Nat.sub_add_cancel (Nat.sub_pos_of_lt hlt), List.range'_succ,
        Nat.sub_sub]
    rw [Exchange.receive, hx]
    simp only [hwaiting, List.mem_cons_self, if_true, List.erase_cons_head]
    refine ⟨h.issued_eq, h.requests_eq, ?_, ?_, h.store_eq⟩
    · rw [List.append_assoc, List.singleton_append, ← hx, h.answers_eq]
    · rw [List.length_append, List.length_singleton, hn]

end Orderly

end Exchange

end RemoteCalls

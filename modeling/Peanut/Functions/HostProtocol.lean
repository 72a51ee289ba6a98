import Peanut.Functions.Invoke
import Peanut.Library.RemoteCalls
import Peanut.Library.Utf16
import Peanut.Sdks.Realtime

/-!
# The protocol of host calls

`execute_in_sandbox` of `functions/runtime.rs` runs a function in a process of its own,
under the runner of `RUNNER_SOURCE`.  The two exchange lines of JSON: the runner writes a
line for each call of the host that the function makes, without waiting for the others,
and reads what the server writes in pieces of any length; the server handles one line
after the other.  The calls are carried out in the order in which the function makes
them, and each promise gets the answer to its own call; only the end of the time can cut
a call off, and it is the last one then.

The function writes nothing to its standard output but through the runner.
-/

namespace Peanut

open Incremental RemoteCalls

/-! ### Lines of JSON -/

mutual

/-- The value with its numbers as the other side reads them. -/
def Value.reread (number : Number → Number) : Value → Value
  | .null => .null
  | .bool b => .bool b
  | .number n => .number (number n)
  | .string s => .string s
  | .array items => .array (Value.rereadItems number items)
  | .object fields => .object (Value.rereadFields number fields)

def Value.rereadItems (number : Number → Number) : List Value → List Value
  | [] => []
  | v :: items => v.reread number :: Value.rereadItems number items

def Value.rereadFields (number : Number → Number) : List (String × Value) → List (String × Value)
  | [] => []
  | (key, v) :: fields => (key, v.reread number) :: Value.rereadFields number fields

end

/-- One side writes a value as JSON and the other reads it; numbers may lose precision. -/
structure JsonLink where
  write : Value → List Char
  read : List Char → Option Value
  number : Number → Number
  read_write : ∀ v, read (write v) = some (v.reread number)
  newline_not_mem : ∀ v, '\n' ∉ write v
  trim_ne_nil : ∀ v, jsTrim (write v) ≠ []

/-! ### There are such links -/

def Number.code : Number → List Nat
  | .posInt n => [0, n.toNat]
  | .negInt n => [1, n.toUInt64.toNat]
  | .float bits => [2, bits.toNat]

def textCode (s : String) : List Nat := s.toList.length :: s.toList.map Char.toNat

mutual

/-- A value as a list of numbers; no code begins another. -/
def Value.code : Value → List Nat
  | .null => [0]
  | .bool b => [1, b.toNat]
  | .number n => 2 :: n.code
  | .string s => 3 :: textCode s
  | .array items => 4 :: Value.itemsCode items
  | .object fields => 5 :: Value.fieldsCode fields

def Value.itemsCode : List Value → List Nat
  | [] => [0]
  | v :: items => 1 :: (v.code ++ Value.itemsCode items)

def Value.fieldsCode : List (String × Value) → List Nat
  | [] => [0]
  | (key, v) :: fields => 1 :: (textCode key ++ (v.code ++ Value.fieldsCode fields))

end

theorem Number.code_append_inj {n n' : Number} {l l' : List Nat}
    (h : n.code ++ l = n'.code ++ l') : n = n' ∧ l = l' := by
  rcases n with n | n | n <;> rcases n' with n' | n' | n' <;>
    simp [Number.code, UInt64.toNat_inj] at h ⊢ <;> try exact h
  exact ⟨Int64.toBitVec_inj.mp (congrArg UInt64.toBitVec h.1), h.2⟩

theorem textCode_append_inj {s s' : String} {l l' : List Nat}
    (h : textCode s ++ l = textCode s' ++ l') : s = s' ∧ l = l' := by
  simp only [textCode, List.cons_append, List.cons.injEq] at h
  have hparts := List.append_inj h.2 (by simpa using h.1)
  refine ⟨String.toList_inj.mp ?_, hparts.2⟩
  exact List.map_injective_iff.mpr (fun _ _ => Char.toNat_inj.mp) hparts.1

mutual

theorem Value.code_append_inj : ∀ {v v' : Value} {l l' : List Nat},
    v.code ++ l = v'.code ++ l' → v = v' ∧ l = l'
  | .null, v', l, l', h => by
      rcases v' with _ | _ | _ | _ | _ | _ <;> simp_all [Value.code]
  | .bool b, v', l, l', h => by
      rcases v' with _ | b' | _ | _ | _ | _ <;> simp [Value.code] at h ⊢
      revert h; cases b <;> cases b' <;> simp
  | .number n, v', l, l', h => by
      rcases v' with _ | _ | n' | _ | _ | _ <;> simp [Value.code] at h ⊢
      exact Number.code_append_inj h
  | .string s, v', l, l', h => by
      rcases v' with _ | _ | _ | s' | _ | _ <;> simp [Value.code] at h ⊢
      exact textCode_append_inj h
  | .array items, v', l, l', h => by
      rcases v' with _ | _ | _ | _ | items' | _ <;> simp [Value.code] at h ⊢
      exact Value.itemsCode_append_inj h
  | .object fields, v', l, l', h => by
      rcases v' with _ | _ | _ | _ | _ | fields' <;> simp [Value.code] at h ⊢
      exact Value.fieldsCode_append_inj h

theorem Value.itemsCode_append_inj : ∀ {items items' : List Value} {l l' : List Nat},
    Value.itemsCode items ++ l = Value.itemsCode items' ++ l' → items = items' ∧ l = l'
  | [], items', l, l', h => by
      rcases items' with _ | _ <;> simp [Value.itemsCode] at h ⊢
      exact h
  | v :: items, items', l, l', h => by
      rcases items' with _ | ⟨v', items'⟩ <;> simp [Value.itemsCode] at h ⊢
      obtain ⟨rfl, hrest⟩ := Value.code_append_inj h
      obtain ⟨rfl, hl⟩ := Value.itemsCode_append_inj hrest
      exact ⟨⟨rfl, rfl⟩, hl⟩

theorem Value.fieldsCode_append_inj : ∀ {fields fields' : List (String × Value)} {l l' : List Nat},
    Value.fieldsCode fields ++ l = Value.fieldsCode fields' ++ l' → fields = fields' ∧ l = l'
  | [], fields', l, l', h => by
      rcases fields' with _ | _ <;> simp [Value.fieldsCode] at h ⊢
      exact h
  | (key, v) :: fields, fields', l, l', h => by
      rcases fields' with _ | ⟨⟨key', v'⟩, fields'⟩ <;> simp [Value.fieldsCode] at h ⊢
      obtain ⟨rfl, hvalue⟩ := textCode_append_inj h
      obtain ⟨rfl, hrest⟩ := Value.code_append_inj hvalue
      obtain ⟨rfl, hl⟩ := Value.fieldsCode_append_inj hrest
      exact ⟨⟨⟨rfl, rfl⟩, rfl⟩, hl⟩

end

theorem Value.code_injective : Function.Injective Value.code := fun _ _ h =>
  (Value.code_append_inj (congrArg (· ++ []) h)).1

mutual

theorem Value.reread_id : ∀ v : Value, v.reread id = v
  | .null => rfl
  | .bool _ => rfl
  | .number _ => rfl
  | .string _ => rfl
  | .array items => congrArg Value.array (Value.rereadItems_id items)
  | .object fields => congrArg Value.object (Value.rereadFields_id fields)

theorem Value.rereadItems_id : ∀ items : List Value, Value.rereadItems id items = items
  | [] => rfl
  | v :: items => congrArg₂ List.cons (Value.reread_id v) (Value.rereadItems_id items)

theorem Value.rereadFields_id :
    ∀ fields : List (String × Value), Value.rereadFields id fields = fields
  | [] => rfl
  | (key, v) :: fields =>
      congrArg₂ List.cons (congrArg (Prod.mk key) (Value.reread_id v))
        (Value.rereadFields_id fields)

end

/-- The number in strokes. -/
def strokes (n : Nat) : List Char := List.replicate n '1' ++ ['0']

theorem strokes_append_inj {n n' : Nat} {l l' : List Char} (h : strokes n ++ l = strokes n' ++ l') :
    n = n' ∧ l = l' := by
  induction n generalizing n' with
  | zero =>
    rcases n' with _ | n'
    · simpa [strokes] using h
    · simp [strokes, List.replicate_succ] at h
  | succ n ih =>
    rcases n' with _ | n'
    · simp [strokes, List.replicate_succ] at h
    · have hrest : strokes n ++ l = strokes n' ++ l' := by
        simpa [strokes, List.replicate_succ] using h
      simpa using ih hrest

theorem mem_flatMap_strokes {c : Char} {code : List Nat} (h : c ∈ code.flatMap strokes) :
    c = '1' ∨ c = '0' := by
  simp only [List.mem_flatMap, strokes, List.mem_append, List.mem_replicate,
    List.mem_singleton] at h
  obtain ⟨n, -, ⟨-, hc⟩ | hc⟩ := h
  · exact .inl hc
  · exact .inr hc

theorem jsTrim_of_no_space {text : List Char} (h : ∀ c ∈ text, isJsWhitespace c = false) :
    jsTrim text = text := by
  have hkept : ∀ l : List Char, (∀ c ∈ l, isJsWhitespace c = false) →
      l.dropWhile isJsWhitespace = l := by
    intro l hl
    rcases l with _ | ⟨c, l⟩
    · rfl
    · rw [List.dropWhile_cons_of_neg]
      simp [hl c List.mem_cons_self]
  rw [jsTrim, hkept text h, hkept _ fun c hc => h c (List.mem_reverse.mp hc), List.reverse_reverse]

open Classical in
instance : Nonempty JsonLink := by
  have hinjective : Function.Injective fun v : Value => v.code.flatMap strokes :=
    (Utf16.flatMap_injective (fun n => by simp [strokes]) strokes_append_inj).comp
      Value.code_injective
  refine ⟨{
    write := fun v => v.code.flatMap strokes
    read := fun text =>
      if h : ∃ v : Value, v.code.flatMap strokes = text then some h.choose else none
    number := id
    read_write := ?_
    newline_not_mem := ?_
    trim_ne_nil := ?_ }⟩
  · intro v
    have hwritten : ∃ v' : Value, v'.code.flatMap strokes = v.code.flatMap strokes := ⟨v, rfl⟩
    rw [dif_pos hwritten, hinjective hwritten.choose_spec, Value.reread_id]
  · intro v hmem
    rcases mem_flatMap_strokes hmem with h | h
    · cases h
    · cases h
  · intro v
    have hspaces : ∀ c ∈ v.code.flatMap strokes, isJsWhitespace c = false := by
      intro c hc
      rcases mem_flatMap_strokes hc with rfl | rfl
      · decide
      · decide
    rw [jsTrim_of_no_space hspaces]
    cases v <;> simp [Value.code, strokes]

/-! ### The runner -/

/-- `` `call-${++callSeq}` `` -/
def callId (callSeq : Nat) : String := "call-" ++ toString callSeq

def hostCallMessage (id action : String) (args : Value) : Value :=
  .object [("action", .string action), ("args", args), ("id", .string id),
    ("type", .string "host_call")]

def resultMessage : Except String Value → Value
  | .ok result => .object [("ok", .bool true), ("result", result), ("type", .string "result")]
  | .error message =>
      .object [("error", .string message), ("ok", .bool false), ("type", .string "result")]

/-- Does the value count as true in a condition of JavaScript? -/
def jsTruthy : Value → Bool
  | .null => false
  | .bool b => b
  | .number (.posInt n) => n != 0
  | .number (.negInt n) => n != 0
  | .number (.float bits) => bits != 0 && bits != 0x8000000000000000
  | .string s => s != ""
  | .array _ => true
  | .object _ => true

/-- The state of the runner.

    * `pending`     the keys of the map of the same name;
    * `invocation`  what `invokePromise` was settled with;
    * `settled`     what the promises of host calls were settled with, and their ids. -/
structure Runner where
  callSeq : Nat := 0
  pending : List String := []
  buffer : List Char := []
  invocation : Option (Except Unit Value) := none
  settled : List (Except String Value × String) := []

namespace Runner

/-- A promise keeps what it was settled with first. -/
def settleInvocation (r : Runner) (outcome : Except Unit Value) : Runner :=
  { r with invocation := some (r.invocation.getD outcome) }

/-- What a response settles its promise with. -/
def outcomeOf (message : Value) : Except String Value :=
  if ((message.member "ok").map jsTruthy).getD false then
    .ok ((message.member "result").getD .null)
  else
    match message.member "error" with
    | some (.string error) => .error (if error = "" then "host call failed" else error)
    | _ => .error "host call failed"

def handleProtocolLine (link : JsonLink) (r : Runner) (line : List Char) : Runner :=
  if (jsTrim line).isEmpty then r
  else
    match link.read line with
    | none => r.settleInvocation (.error ())
    | some message =>
        match message.member "type" with
        | some (.string "invoke") =>
            r.settleInvocation (.ok (match message.member "payload" with
              | none | some .null => .object []
              | some payload => payload))
        | some (.string "host_response") =>
            match message.member "id" with
            | some (.string id) =>
                if id ∈ r.pending then
                  { r with
                    pending := r.pending.erase id
                    settled := r.settled ++ [(outcomeOf message, id)] }
                else r
            | _ => r
        | _ => r

/-- One turn of `readProtocolLoop`: the lines that are complete are handled. -/
def readChunk (link : JsonLink) (r : Runner) (chunk : List Char) : Runner :=
  ((splitting ['\n']).output (r.buffer ++ chunk)).foldl (handleProtocolLine link)
    { r with buffer := (splitting ['\n']).rest (r.buffer ++ chunk) }

end Runner

/-! ### The server -/

structure HostStdoutMessage where
  kind : String
  id : Option String
  action : Option String
  args : Value
  ok : Option Bool
  result : Option Value
  error : Option String

def HostStdoutMessage.ofValue (v : Value) : Option HostStdoutMessage := do
  let kind ← (v.member "type").bind Value.asStr
  let id ← optionalText v "id"
  let action ← optionalText v "action"
  let ok ← optionalBool v "ok"
  let error ← optionalText v "error"
  return {
    kind := kind, id := id, action := action, args := (v.member "args").getD .null, ok := ok
    result := match v.member "result" with
      | some .null => none
      | result => result
    error := error }

def invokeMessage (payload : Value) : Value :=
  .object [("payload", payload), ("type", .string "invoke")]

def hostResponse (id : String) : Except String Value → Value
  | .ok result =>
      .object [("id", .string id), ("ok", .bool true), ("result", result),
        ("type", .string "host_response")]
  | .error error =>
      .object [("error", .string error), ("id", .string id), ("ok", .bool false),
        ("type", .string "host_response")]

/-- Where the loop of `execute_in_sandbox` stands. -/
inductive HostLoop where
  | reading
  /-- The result was read, and the process is waited for. -/
  | exiting (result : Except String Value)
  | finished (outcome : Except String Value)

/-- How the process of the function ended: with an exit status, or because the server
    killed it. -/
inductive ProcessEnd where
  | exited (success : Bool)
  | killed
deriving DecidableEq

/-- The calls of the host on a store: `handle` carries a call out, and `interrupt` is the
    store when a call is given up after so many of its statements. -/
structure HostCalls (σ : Type) where
  handle : σ → String × Value → σ × Except String Value
  interrupt : σ → Nat → String × Value → σ

/-- The process and the server with what is between them.

    * `calls`       the calls of the host that the function made so far;
    * `stdout`      the lines the runner wrote that the server did not read;
    * `stdin`       what the server wrote and the runner did not read;
    * `completion`  what the handler of the function ended with. -/
structure Sandbox (σ : Type) where
  runner : Runner := {}
  calls : List (String × Value) := []
  stdout : List (List Char) := []
  stdin : List Char
  completion : Option (Except String Value) := none
  ended : Option ProcessEnd := none
  store : σ
  host : HostLoop := .reading

/-- What happens next.  The process may exit at any time and with either status: the
    runner exits after its handler, the code of the function may, and it may crash.
    `timeout` drops the future of the server, and with it, after `midway` statements,
    the call whose line is the next. -/
inductive SandboxEvent where
  | call (action : String) (args : Value)
  | read (length : Nat)
  | complete (outcome : Except String Value)
  | exit (success : Bool)
  | serve
  | timeout (midway : Option Nat)

namespace Sandbox

variable {σ : Type}

section Steps

variable (toHost toRunner : JsonLink) (server : HostCalls σ) (brokenPipe : String) (timeoutMs : Int)

def sendFailed : String := "failed to send host response: " ++ brokenPipe

def timedOut : String := "function timed out after " ++ toString timeoutMs ++ "ms"

/-- Has the handler been called, and not ended yet? -/
def running (w : Sandbox σ) : Bool :=
  (match w.runner.invocation with
    | some (.ok _) => true
    | _ => false) && w.completion.isNone && w.ended.isNone

/-- `status.success()` -/
def success (w : Sandbox σ) : Bool := w.ended == some (.exited true)

/-- The end of the loop: the exit status and the result, if one was read. -/
def outcome (w : Sandbox σ) : Option (Except String Value) → Except String Value
  | some (.ok result) => if w.success then .ok result else .error "function execution failed"
  | some (.error error) => .error error
  | none =>
      if w.success then .error "function response payload missing result field"
      else .error "function execution failed"

/-- What the server does with a line. -/
def handleLine (w : Sandbox σ) (line : List Char) : Sandbox σ :=
  match (toHost.read line).bind HostStdoutMessage.ofValue with
  | none => { w with host := .finished (.error "sandbox emitted invalid protocol message") }
  | some message =>
      if message.kind = "host_call" then
        match message.id, message.action with
        | none, _ => { w with host := .finished (.error "sandbox host call missing id") }
        | _, none => { w with host := .finished (.error "sandbox host call missing action") }
        | some id, some action =>
            let (store, answer) := server.handle w.store (action, message.args)
            if w.ended.isSome then
              { w with store := store, host := .finished (.error (sendFailed brokenPipe)) }
            else
              { w with
                store := store
                stdin := w.stdin ++ (toRunner.write (hostResponse id answer) ++ ['\n']) }
      else if message.kind = "result" then
        if message.ok.getD false then
          { w with host := .exiting (.ok (message.result.getD .null)) }
        else { w with host := .exiting (.error (message.error.getD "function execution failed")) }
      else { w with host := .finished (.error "sandbox emitted unknown protocol message") }

/-- The server goes on; it waits while there is nothing to go on with. -/
def serve (w : Sandbox σ) : Sandbox σ :=
  match w.host, w.stdout with
  | .reading, line :: rest =>
      handleLine toHost toRunner server brokenPipe { w with stdout := rest } line
  | .reading, [] => if w.ended.isSome then { w with host := .finished (w.outcome none) } else w
  | .exiting result, _ =>
      if w.ended.isSome then { w with host := .finished (w.outcome (some result)) } else w
  | .finished _, _ => w

/-- The store when the call of a line is given up. -/
def interrupted (w : Sandbox σ) (stop : Nat) (line : List Char) : σ :=
  match (toHost.read line).bind HostStdoutMessage.ofValue with
  | none => w.store
  | some message =>
      if message.kind = "host_call" then
        match message.id, message.action with
        | some _, some action => server.interrupt w.store stop (action, message.args)
        | _, _ => w.store
      else w.store

/-- The store when the server gives up; it has a call in hand only while it reads. -/
def givenUp (w : Sandbox σ) (midway : Option Nat) : σ :=
  match w.host, midway, w.stdout with
  | .reading, some stop, line :: _ => w.interrupted toHost server stop line
  | _, _, _ => w.store

def step (w : Sandbox σ) : SandboxEvent → Sandbox σ
  | .call action args =>
      if w.running then
        let id := callId (w.runner.callSeq + 1)
        { w with
          runner := { w.runner with
            callSeq := w.runner.callSeq + 1, pending := w.runner.pending ++ [id] }
          calls := w.calls ++ [(action, args)]
          stdout := w.stdout ++ [toHost.write (hostCallMessage id action args)] }
      else w
  | .read length =>
      if w.completion.isNone && w.ended.isNone then
        { w with
          runner := w.runner.readChunk toRunner (w.stdin.take length)
          stdin := w.stdin.drop length }
      else w
  | .complete outcome =>
      if w.running then
        { w with
          completion := some outcome, stdout := w.stdout ++ [toHost.write (resultMessage outcome)] }
      else w
  | .exit success => if w.ended.isNone then { w with ended := some (.exited success) } else w
  | .serve => w.serve toHost toRunner server brokenPipe
  | .timeout midway =>
      match w.host with
      | .finished _ => w
      | _ =>
          { w with
            store := w.givenUp toHost server midway
            ended := some (w.ended.getD .killed)
            host := .finished (.error (timedOut timeoutMs)) }

/-- The process was started and told what to run. -/
def start (payload : Value) (s : σ) : Sandbox σ :=
  { stdin := toRunner.write (invokeMessage payload) ++ ['\n'], store := s }

def run (payload : Value) (s : σ) (events : List SandboxEvent) : Sandbox σ :=
  events.foldl (step toHost toRunner server brokenPipe timeoutMs) (start toRunner payload s)

end Steps

end Sandbox

/-! ### Messages and lines -/

theorem JsonLink.newline_not_mem_lines (link : JsonLink) {vs : List Value} :
    ∀ line ∈ vs.map link.write, '\n' ∉ line := by
  simp only [List.mem_map]
  rintro line ⟨v, -, rfl⟩
  exact link.newline_not_mem v

/-- What the server reads of a call. -/
def received (toHost : JsonLink) (call : String × Value) : String × Value :=
  (call.1, call.2.reread toHost.number)

theorem read_hostCallMessage (toHost : JsonLink) (id action : String) (args : Value) :
    (toHost.read (toHost.write (hostCallMessage id action args))).bind HostStdoutMessage.ofValue =
      some {
        kind := "host_call", id := some id, action := some action
        args := args.reread toHost.number, ok := none, result := none, error := none } := by
  rw [toHost.read_write]
  rfl

/-- What the server reads of the end of the handler. -/
def relayed (toHost : JsonLink) : Except String Value → Except String Value
  | .ok result => .ok (result.reread toHost.number)
  | .error message => .error message

/-- What the promise of a call is settled with. -/
def answerOf (toRunner : JsonLink) : Except String Value → Except String Value
  | .ok result => .ok (result.reread toRunner.number)
  | .error error => .error (if error = "" then "host call failed" else error)

theorem Runner.handleProtocolLine_write {link : JsonLink} {r : Runner} {message : Value} :
    r.handleProtocolLine link (link.write message) =
      match (message.reread link.number).member "type" with
      | some (.string "invoke") =>
          r.settleInvocation (.ok (match (message.reread link.number).member "payload" with
            | none | some .null => .object []
            | some payload => payload))
      | some (.string "host_response") =>
          match (message.reread link.number).member "id" with
          | some (.string id) =>
              if id ∈ r.pending then
                { r with
                  pending := r.pending.erase id
                  settled := r.settled ++ [(outcomeOf (message.reread link.number), id)] }
              else r
          | _ => r
      | _ => r := by
  rw [Runner.handleProtocolLine, if_neg (by simpa using link.trim_ne_nil message),
    link.read_write]

theorem Runner.handleProtocolLine_invoke (link : JsonLink) (r : Runner) (payload : Value) :
    ∃ p, r.handleProtocolLine link (link.write (invokeMessage payload)) =
      r.settleInvocation (.ok p) :=
  ⟨_, Runner.handleProtocolLine_write⟩

theorem Runner.handleProtocolLine_response {link : JsonLink} {r : Runner} {id : String}
    (hid : id ∈ r.pending) (answer : Except String Value) :
    r.handleProtocolLine link (link.write (hostResponse id answer)) =
      { r with
        pending := r.pending.erase id
        settled := r.settled ++ [(answerOf link answer, id)] } := by
  rw [Runner.handleProtocolLine_write]
  rcases answer with error | result
  · exact if_pos hid
  · exact if_pos hid

theorem Sandbox.handleLine_result {σ : Type} (toHost toRunner : JsonLink)
    (server : HostCalls σ) (brokenPipe : String)
    (w : Sandbox σ) (outcome : Except String Value) :
    w.handleLine toHost toRunner server brokenPipe
        (toHost.write (resultMessage outcome)) =
      { w with host := .exiting (relayed toHost outcome) } := by
  rw [Sandbox.handleLine, toHost.read_write]
  rcases outcome with message | result
  · rfl
  · cases result <;> rfl

theorem Sandbox.handleLine_call {σ : Type} (toHost toRunner : JsonLink)
    (server : HostCalls σ) (brokenPipe : String)
    (w : Sandbox σ) (id : String) (call : String × Value) :
    w.handleLine toHost toRunner server brokenPipe
        (toHost.write (hostCallMessage id call.1 call.2)) =
      let (store, answer) := server.handle w.store (received toHost call)
      if w.ended.isSome then
        { w with store := store, host := .finished (.error (sendFailed brokenPipe)) }
      else
        { w with
          store := store
          stdin := w.stdin ++ (toRunner.write (hostResponse id answer) ++ ['\n']) } := by
  rw [Sandbox.handleLine, read_hostCallMessage]
  rfl

/-! ### Calls and promises -/

section Protocol

variable {σ : Type} (toHost toRunner : JsonLink) (server : HostCalls σ) (brokenPipe : String)
  (timeoutMs : Int) (payload : Value) (s : σ)

/-- The handler of the server, on what it reads of a call. -/
def carryOut (store : σ) (call : String × Value) : σ × Except String Value :=
  server.handle store (received toHost call)

def callLine (p : (String × Value) × Nat) : List Char :=
  toHost.write (hostCallMessage (callId (p.2 + 1)) p.1.1 p.1.2)

def answerMessage (p : Except String Value × Nat) : Value := hostResponse (callId (p.2 + 1)) p.1

/-- How an invocation can end when the calls in `served` were carried out. -/
inductive Ending (served : List (String × Value)) (w : Sandbox σ) : Except String Value → Prop where
  | returned {result : Value} (hcompletion : w.completion = some (.ok result))
      (hended : w.ended = some (.exited true)) (hserved : served = w.calls) :
      Ending served w (.ok (result.reread toHost.number))
  | threw {message : String} (hcompletion : w.completion = some (.error message))
      (hserved : served = w.calls) : Ending served w (.error message)
  | missing (hcompletion : w.completion = none) (hended : w.ended = some (.exited true))
      (hserved : served = w.calls) :
      Ending served w (.error "function response payload missing result field")
  | failed (hcompletion : ∀ message, w.completion ≠ some (.error message))
      (hended : w.ended = some (.exited false)) (hserved : served = w.calls) :
      Ending served w (.error "function execution failed")
  | sendFailed (hpending : w.runner.pending ≠ []) :
      Ending served w (.error (Sandbox.sendFailed brokenPipe))
  | timedOut : Ending served w (.error (Sandbox.timedOut timeoutMs))

abbrev HostExchange (σ : Type) := Exchange (String × Value) (Except String Value) σ

/-- Where the server stands, in the terms of the exchange. -/
inductive HostState (served : List (String × Value)) (x : HostExchange σ) (w : Sandbox σ) :
    HostLoop → Prop where
  | reading
      (hstdout : w.stdout = x.requests.map (callLine toHost) ++
        (w.completion.map fun outcome => toHost.write (resultMessage outcome)).toList)
      (hended : w.ended ≠ some .killed) : HostState served x w .reading
  | exiting {outcome : Except String Value} (hcompletion : w.completion = some outcome)
      (hserved : served = w.calls) (hended : w.ended ≠ some .killed) :
      HostState served x w (.exiting (relayed toHost outcome))
  | finished {outcome : Except String Value} (hended : w.ended.isSome = true)
      (hending : Ending toHost brokenPipe timeoutMs served w outcome) :
      HostState served x w (.finished outcome)

/-- The store is what the calls that were carried out left, or the time was over while
    the next one was carried out. -/
def StoreOf (served : List (String × Value)) (x : HostExchange σ) (w : Sandbox σ) : Prop :=
  w.store = x.store ∨ ∃ call stop, served ++ [call] <+: w.calls ∧
    w.store = server.interrupt x.store stop (received toHost call) ∧
    w.host = .finished (.error (Sandbox.timedOut timeoutMs))

/-- What the server wrote and the runner did not handle yet. -/
def unread (x : HostExchange σ) (w : Sandbox σ) : List Value :=
  (if w.runner.invocation.isNone then [invokeMessage payload] else []) ++
    x.responses.map answerMessage

/-- The process and the server are an exchange of calls and answers. -/
structure Linked (served : List (String × Value)) (x : HostExchange σ) (w : Sandbox σ) : Prop where
  orderly : Exchange.Orderly (carryOut toHost server) s served x
  calls_eq : w.calls = x.issued
  callSeq_eq : w.runner.callSeq = x.issued.length
  pending_eq : w.runner.pending = x.waiting.map fun n => callId (n + 1)
  settled_eq : w.runner.settled =
    x.settled.map fun p => (answerOf toRunner p.1, callId (p.2 + 1))
  store : StoreOf toHost server timeoutMs served x w
  invocation : w.runner.invocation = none ∧ x.issued = [] ∨
    ∃ p, w.runner.invocation = some (.ok p)
  stdin_eq : w.ended = none →
    w.runner.buffer ++ w.stdin = ((unread payload x w).map toRunner.write).flatMap (· ++ ['\n'])
  host : HostState toHost brokenPipe timeoutMs served x w w.host

end Protocol

namespace Linked

variable {σ : Type} {toHost toRunner : JsonLink} {server : HostCalls σ} {brokenPipe : String}
  {timeoutMs : Int} {payload : Value} {s : σ} {served : List (String × Value)}
  {x : HostExchange σ} {w : Sandbox σ}

theorem of_start : Linked toHost toRunner server brokenPipe timeoutMs payload s []
    (Exchange.start s) (Sandbox.start toRunner payload s) where
  orderly := .of_start s
  calls_eq := rfl
  callSeq_eq := rfl
  pending_eq := rfl
  settled_eq := rfl
  store := .inl rfl
  invocation := .inl ⟨rfl, rfl⟩
  stdin_eq _ := by simp [Sandbox.start, unread, Exchange.start]
  host := .reading rfl (by simp [Sandbox.start])

theorem store_eq
    (h : Linked toHost toRunner server brokenPipe timeoutMs payload s served x w)
    (hopen : ∀ outcome, w.host ≠ .finished outcome) : w.store = x.store := by
  rcases h.store with heq | ⟨call, stop, -, -, hhost⟩
  · exact heq
  · exact absurd hhost (hopen _)

theorem reading_of_running
    (h : Linked toHost toRunner server brokenPipe timeoutMs payload s served x w)
    (hrunning : w.running = true) :
    w.host = .reading ∧ w.stdout = x.requests.map (callLine toHost) ∧ w.completion = none ∧
      w.ended = none ∧ ∃ p, w.runner.invocation = some (.ok p) := by
  simp only [Sandbox.running, Bool.and_eq_true, Option.isNone_iff_eq_none] at hrunning
  obtain ⟨⟨hinvocation, hcompletion⟩, hended⟩ := hrunning
  have hinvoked : ∃ p, w.runner.invocation = some (.ok p) := by
    rcases h.invocation with ⟨hnone, -⟩ | hsome
    · simp [hnone] at hinvocation
    · exact hsome
  have hhost := h.host
  generalize w.host = host at hhost
  rcases hhost with ⟨hstdout, -⟩ | ⟨hsome, -, -⟩ | ⟨hsome, -⟩
  · rw [hcompletion] at hstdout
    exact ⟨rfl, by simpa using hstdout, hcompletion, hended, hinvoked⟩
  · rw [hcompletion] at hsome
    cases hsome
  · rw [hended] at hsome
    cases hsome

theorem call
    (h : Linked toHost toRunner server brokenPipe timeoutMs payload s served x w)
    (hrunning : w.running = true) (action : String) (args : Value) :
    Linked toHost toRunner server brokenPipe timeoutMs payload s served
      (x.call (action, args))
      (w.step toHost toRunner server brokenPipe timeoutMs (.call action args)) := by
  obtain ⟨hhost, hstdout, hcompletion, hended, p, hp⟩ := h.reading_of_running hrunning
  rw [Sandbox.step, if_pos hrunning]
  have hstore := h.store_eq fun outcome => by simp [hhost]
  refine ⟨h.orderly.call (action, args), ?_, ?_, ?_, h.settled_eq, .inl hstore, ?_, ?_, ?_⟩
  · simp [Exchange.call, h.calls_eq]
  · simp [Exchange.call, h.callSeq_eq]
  · simp [Exchange.call, h.pending_eq, h.callSeq_eq]
  · exact .inr ⟨p, hp⟩
  · exact h.stdin_eq
  · simp only [hhost]
    refine .reading ?_ ?_
    · simp [Exchange.call, hstdout, hcompletion, callLine, h.callSeq_eq]
    · simp [hended]

theorem complete
    (h : Linked toHost toRunner server brokenPipe timeoutMs payload s served x w)
    (hrunning : w.running = true) (outcome : Except String Value) :
    Linked toHost toRunner server brokenPipe timeoutMs payload s served x
      (w.step toHost toRunner server brokenPipe timeoutMs (.complete outcome)) := by
  obtain ⟨hhost, hstdout, hcompletion, hended, -⟩ := h.reading_of_running hrunning
  rw [Sandbox.step, if_pos hrunning]
  refine { h with host := ?_ }
  simp only [hhost]
  refine .reading ?_ ?_
  · simp [hstdout]
  · simp [hended]

theorem setEnded
    (h : Linked toHost toRunner server brokenPipe timeoutMs payload s served x w)
    (hnot : w.ended = none) (success : Bool) :
    Linked toHost toRunner server brokenPipe timeoutMs payload s served x
      { w with ended := some (.exited success) } := by
  refine { h with
    stdin_eq := fun hended => by cases hended
    host := ?_ }
  have hhost := h.host
  generalize w.host = host at hhost ⊢
  rcases hhost with ⟨hstdout, -⟩ | ⟨hcompletion, hserved, -⟩ | ⟨hsome, -⟩
  · exact .reading hstdout (by simp)
  · exact .exiting hcompletion hserved (by simp)
  · rw [hnot] at hsome
    cases hsome

theorem step_of_finished
    (h : Linked toHost toRunner server brokenPipe timeoutMs payload s served x w)
    {outcome : Except String Value} (hhost : w.host = .finished outcome) (event : SandboxEvent) :
    w.step toHost toRunner server brokenPipe timeoutMs event = w := by
  have hended : w.ended.isSome = true := by
    have hstate := h.host
    rw [hhost] at hstate
    cases hstate with
    | finished hended _ => exact hended
  have hnone : w.ended.isNone = false := by simpa using hended
  rcases event with _ | _ | _ | _ | _ | _
  all_goals simp [Sandbox.step, Sandbox.running, Sandbox.serve, hnone, hhost]

/-- The server carries out the first call that it did not read. -/
theorem serve_call
    (h : Linked toHost toRunner server brokenPipe timeoutMs payload s served x w)
    (hhost : w.host = .reading) {call : String × Value} {n : Nat}
    {rest : List ((String × Value) × Nat)} (hrequests : x.requests = (call, n) :: rest)
    {stdout : List (List Char)} (hstdout : stdout = rest.map (callLine toHost) ++
      (w.completion.map fun outcome => toHost.write (resultMessage outcome)).toList)
    (hkilled : w.ended ≠ some .killed) :
    Linked toHost toRunner server brokenPipe timeoutMs payload s (served ++ [call])
      (x.serveNext (carryOut toHost server))
      (Sandbox.handleLine toHost toRunner server brokenPipe { w with stdout := stdout }
        (callLine toHost (call, n))) := by
  have horderly : Exchange.Orderly (carryOut toHost server) s (served ++ [call])
      (x.serveNext (carryOut toHost server)) := by
    rcases h.orderly.serveNext with ⟨hnone, -⟩ | ⟨call', n', rest', hsome, horderly⟩
    · rw [hrequests] at hnone
      cases hnone
    · rw [hrequests] at hsome
      cases hsome
      exact horderly
  have hexchange : x.serveNext (carryOut toHost server) =
      { x with
        requests := rest
        responses := x.responses ++ [((server.handle x.store (received toHost call)).2, n)]
        store := (server.handle x.store (received toHost call)).1 } := by
    rw [Exchange.serveNext, hrequests]
    rfl
  have hwaits : x.waiting ≠ [] := by
    have hanswered := h.orderly.answered
    have hissued := h.orderly.issued_length
    rw [hrequests, List.length_cons] at hissued
    rw [h.orderly.waiting_eq, Ne, List.range'_eq_nil_iff]
    omega
  have hstore := h.store_eq fun outcome => by simp [hhost]
  rw [hexchange] at horderly ⊢
  rw [callLine, Sandbox.handleLine_call]
  by_cases hsome : w.ended.isSome = true
  · simp only [if_pos hsome]
    refine { h with
      orderly := horderly, store := .inl ?_, stdin_eq := fun hnone => ?_, host := ?_ }
    · simp [hstore]
    · have : w.ended = none := hnone
      simp [this] at hsome
    · refine .finished hsome (.sendFailed ?_)
      simpa [h.pending_eq] using hwaits
  · simp only [if_neg hsome]
    refine { h with
      orderly := horderly, store := .inl ?_, stdin_eq := fun hended => ?_, host := ?_ }
    · simp [hstore]
    · have hstdin := h.stdin_eq hended
      simp only [unread] at hstdin ⊢
      rw [← List.append_assoc, hstdin, List.map_append, ← List.append_assoc, List.map_append,
        List.flatMap_append, hstore]
      simp [answerMessage]
    · simp only [hhost]
      exact .reading hstdout hkilled

theorem finish
    (h : Linked toHost toRunner server brokenPipe timeoutMs payload s served x w)
    (hopen : ∀ outcome, w.host ≠ .finished outcome) (hended : w.ended.isSome = true)
    {outcome : Except String Value}
    (hending : Ending toHost brokenPipe timeoutMs served w outcome) :
    Linked toHost toRunner server brokenPipe timeoutMs payload s served x
      { w with host := .finished outcome } := by
  refine { h with store := .inl (h.store_eq hopen), host := .finished hended ?_ }
  rcases hending with ⟨hcompletion, hexited, hserved⟩ | ⟨hcompletion, hserved⟩ |
    ⟨hcompletion, hexited, hserved⟩ | ⟨hcompletion, hexited, hserved⟩ | hpending | -
  · exact .returned hcompletion hexited hserved
  · exact .threw hcompletion hserved
  · exact .missing hcompletion hexited hserved
  · exact .failed hcompletion hexited hserved
  · exact .sendFailed hpending
  · exact .timedOut

theorem served_eq_calls
    (h : Linked toHost toRunner server brokenPipe timeoutMs payload s served x w)
    (hrequests : x.requests = []) : served = w.calls := by
  rw [h.calls_eq, h.orderly.issued_eq, hrequests, List.map_nil, List.append_nil]

theorem interrupted_eq
    (h : Linked toHost toRunner server brokenPipe timeoutMs payload s served x w)
    (hhost : w.host = .reading) {line : List Char} {rest : List (List Char)}
    (hline : w.stdout = line :: rest) (stop : Nat) :
    w.interrupted toHost server stop line = w.store ∨
      ∃ call, served ++ [call] <+: w.calls ∧
        w.interrupted toHost server stop line =
          server.interrupt w.store stop (received toHost call) := by
  have hstate := h.host
  rw [hhost] at hstate
  obtain hstdout : w.stdout = _ := by
    cases hstate with
    | reading hstdout _ => exact hstdout
  rw [hline] at hstdout
  rcases hrequests : x.requests with _ | ⟨⟨call, n⟩, requests⟩
  · -- only the result is left to be read
    left
    rcases hcompletion : w.completion with _ | outcome
    · simp [hrequests, hcompletion] at hstdout
    · simp only [hrequests, hcompletion, List.map_nil, List.nil_append, Option.map_some,
        Option.toList_some, List.cons.injEq] at hstdout
      rw [Sandbox.interrupted, hstdout.1, toHost.read_write]
      rcases outcome with message | result
      · rfl
      · rfl
  · right
    refine ⟨call, ?_, ?_⟩
    · rw [h.calls_eq, h.orderly.issued_eq, hrequests, List.map_cons]
      exact ⟨requests.map Prod.fst, by simp⟩
    · simp only [hrequests, List.map_cons, List.cons_append, List.cons.injEq] at hstdout
      rw [Sandbox.interrupted, hstdout.1, callLine, read_hostCallMessage]
      rfl

theorem timeout
    (h : Linked toHost toRunner server brokenPipe timeoutMs payload s served x w)
    (midway : Option Nat) :
    Linked toHost toRunner server brokenPipe timeoutMs payload s served x
      (w.step toHost toRunner server brokenPipe timeoutMs (.timeout midway)) := by
  by_cases hdone : ∃ outcome, w.host = .finished outcome
  · obtain ⟨outcome, hhost⟩ := hdone
    rwa [h.step_of_finished hhost]
  · have hopen : ∀ outcome, w.host ≠ .finished outcome := fun outcome heq => hdone ⟨outcome, heq⟩
    have hstore := h.store_eq hopen
    have hstep : w.step toHost toRunner server brokenPipe timeoutMs (.timeout midway) =
        { w with
          store := w.givenUp toHost server midway
          ended := some (w.ended.getD .killed)
          host := .finished (.error (Sandbox.timedOut timeoutMs)) } := by
      rw [Sandbox.step]
      split
      · rename_i outcome heq
        exact absurd heq (hopen outcome)
      · rfl
    rw [hstep]
    refine { h with
      store := ?_, stdin_eq := fun hnone => (by cases hnone), host := .finished rfl .timedOut }
    unfold Sandbox.givenUp
    split
    · rename_i stop line rest hhost hline
      rcases h.interrupted_eq hhost hline stop with heq | ⟨call, hcall, heq⟩
      · exact .inl (heq.trans hstore)
      · rw [hstore] at heq
        exact .inr ⟨call, stop, hcall, heq, rfl⟩
    · exact .inl hstore

theorem serve_without_result
    (h : Linked toHost toRunner server brokenPipe timeoutMs payload s served x w)
    (hhost : w.host = .reading) (hcompletion : w.completion = none) (hserved : served = w.calls)
    {success : Bool} (hended : w.ended = some (.exited success)) :
    Linked toHost toRunner server brokenPipe timeoutMs payload s served x
      { w with host := .finished (w.outcome none) } := by
  refine h.finish (by simp [hhost]) (by simp [hended]) ?_
  cases success with
  | true =>
    have hsuccess : w.success = true := by simp [Sandbox.success, hended]
    simp only [Sandbox.outcome, hsuccess, if_true]
    exact .missing hcompletion hended hserved
  | false =>
    have hsuccess : w.success = false := by simp [Sandbox.success, hended]
    simp only [Sandbox.outcome, hsuccess, Bool.false_eq_true, if_false]
    exact .failed (by simp [hcompletion]) hended hserved

theorem serve_result
    (h : Linked toHost toRunner server brokenPipe timeoutMs payload s served x w)
    {outcome : Except String Value} (hhost : w.host = .exiting (relayed toHost outcome))
    (hcompletion : w.completion = some outcome) (hserved : served = w.calls) {success : Bool}
    (hended : w.ended = some (.exited success)) :
    Linked toHost toRunner server brokenPipe timeoutMs payload s served x
      { w with host := .finished (w.outcome (some (relayed toHost outcome))) } := by
  refine h.finish (by simp [hhost]) (by simp [hended]) ?_
  rcases outcome with message | result
  · exact .threw hcompletion hserved
  · cases success with
    | true =>
      have hsuccess : w.success = true := by simp [Sandbox.success, hended]
      simp only [relayed, Sandbox.outcome, hsuccess, if_true]
      exact .returned hcompletion hended hserved
    | false =>
      have hsuccess : w.success = false := by simp [Sandbox.success, hended]
      simp only [relayed, Sandbox.outcome, hsuccess, Bool.false_eq_true, if_false]
      exact .failed (by simp [hcompletion]) hended hserved

theorem exited_of_ended {ended : Option ProcessEnd} (hended : ended.isSome = true)
    (hkilled : ended ≠ some .killed) : ∃ success, ended = some (.exited success) := by
  obtain ⟨how, rfl⟩ := Option.isSome_iff_exists.mp hended
  cases how with
  | exited success => exact ⟨success, rfl⟩
  | killed => exact absurd rfl hkilled

theorem serve
    (h : Linked toHost toRunner server brokenPipe timeoutMs payload s served x w) :
    ∃ served' x', Linked toHost toRunner server brokenPipe timeoutMs payload s served' x'
      (w.serve toHost toRunner server brokenPipe) := by
  have hstate := h.host
  generalize hhost : w.host = host at hstate
  rcases hstate with ⟨hstdout, hkilled⟩ | ⟨hcompletion, hserved, hkilled⟩ | ⟨hended, -⟩
  · rcases hrequests : x.requests with _ | ⟨⟨call, n⟩, rest⟩
    · have hserved := h.served_eq_calls hrequests
      rcases hcompletion : w.completion with _ | outcome
      · have hempty : w.stdout = [] := by simp [hstdout, hrequests, hcompletion]
        refine ⟨served, x, ?_⟩
        by_cases hended : w.ended.isSome = true
        · simp only [Sandbox.serve, hhost, hempty, if_pos hended]
          obtain ⟨success, hexited⟩ := exited_of_ended hended hkilled
          have hfinish := h.serve_without_result hhost hcompletion hserved hexited
          rwa [hempty] at hfinish
        · simpa only [Sandbox.serve, hhost, hempty, if_neg hended] using h
      · have hline : w.stdout = [toHost.write (resultMessage outcome)] := by
          simp [hstdout, hrequests, hcompletion]
        refine ⟨served, x, ?_⟩
        simp only [Sandbox.serve, hhost, hline, Sandbox.handleLine_result]
        exact { h with
          store := .inl (h.store_eq (by simp [hhost]))
          host := .exiting hcompletion hserved hkilled }
    · refine ⟨served ++ [call], x.serveNext (carryOut toHost server), ?_⟩
      have hline : w.stdout = callLine toHost (call, n) :: (rest.map (callLine toHost) ++
          (w.completion.map fun outcome => toHost.write (resultMessage outcome)).toList) := by
        simp [hstdout, hrequests]
      simp only [Sandbox.serve, hhost, hline]
      rw [← hhost]
      exact h.serve_call hhost hrequests rfl hkilled
  · refine ⟨served, x, ?_⟩
    by_cases hended : w.ended.isSome = true
    · simp only [Sandbox.serve, hhost, if_pos hended]
      obtain ⟨success, hexited⟩ := exited_of_ended hended hkilled
      exact h.serve_result hhost hcompletion hserved hexited
    · simpa only [Sandbox.serve, hhost, if_neg hended] using h
  · refine ⟨served, x, ?_⟩
    simpa only [Sandbox.serve, hhost] using h

theorem foldl_responses {link : JsonLink} {carry : σ → String × Value → σ × Except String Value}
    {r : Runner} (horderly : Exchange.Orderly carry s served x)
    (hpending : r.pending = x.waiting.map fun n => callId (n + 1))
    (hsettled : r.settled = x.settled.map fun p => (answerOf link p.1, callId (p.2 + 1)))
    {front back : List (Except String Value × Nat)} (hresponses : x.responses = front ++ back) :
    ∃ waiting settled,
      Exchange.Orderly carry s served
        { x with responses := back, waiting := waiting, settled := settled } ∧
      ((front.map answerMessage).map link.write).foldl (Runner.handleProtocolLine link) r =
        { r with
          pending := waiting.map fun n => callId (n + 1)
          settled := settled.map fun p => (answerOf link p.1, callId (p.2 + 1)) } := by
  induction front generalizing x r with
  | nil =>
    refine ⟨x.waiting, x.settled, ?_, ?_⟩
    · rw [← List.nil_append back, ← hresponses]
      exact horderly
    · simp only [List.map_nil, List.foldl_nil]
      rw [← hpending, ← hsettled]
  | cons first front ih =>
    obtain ⟨answer, n⟩ := first
    have hreceive := horderly.receive
    rw [List.cons_append] at hresponses
    obtain ⟨waiting, hwaiting⟩ : ∃ waiting, x.waiting = n :: waiting := by
      have hn := horderly.number_of_response hresponses
      have hanswered := horderly.answered
      have hissued := horderly.issued_length
      rw [hresponses, List.length_cons] at hanswered
      have hpos : 0 < x.issued.length - x.settled.length := by omega
      rw [horderly.waiting_eq, hn, ← Nat.sub_add_cancel hpos, List.range'_succ]
      exact ⟨_, rfl⟩
    have hexchange : x.receive =
        { x with
          responses := front ++ back
          waiting := waiting
          settled := x.settled ++ [(answer, n)] } := by
      rw [Exchange.receive, hresponses]
      simp [hwaiting]
    rw [hexchange] at hreceive
    rw [hwaiting, List.map_cons] at hpending
    have hstep := @Runner.handleProtocolLine_response link r (callId (n + 1)) (by simp [hpending])
      answer
    obtain ⟨waiting', settled', horderly', hfold⟩ := ih (r := {
        r with
        pending := waiting.map fun n => callId (n + 1)
        settled := r.settled ++ [(answerOf link answer, callId (n + 1))] })
      hreceive rfl (by simp [hsettled]) rfl
    refine ⟨waiting', settled', horderly', ?_⟩
    simp only [List.map_cons, List.foldl_cons, answerMessage] at hfold ⊢
    rw [hstep, hpending, List.erase_cons_head, hfold]

theorem setRunner
    (h : Linked toHost toRunner server brokenPipe timeoutMs payload s served x w)
    (hended : w.ended = none) {runner : Runner} {stdin : List Char}
    {responses : List (Except String Value × Nat)} {waiting : List Nat}
    {settled : List (Except String Value × Nat)}
    (horderly : Exchange.Orderly (carryOut toHost server) s served
      { x with responses := responses, waiting := waiting, settled := settled })
    (hcallSeq : runner.callSeq = w.runner.callSeq)
    (hpending : runner.pending = waiting.map fun n => callId (n + 1))
    (hsettled : runner.settled =
      settled.map fun p => (answerOf toRunner p.1, callId (p.2 + 1)))
    (hinvocation : runner.invocation = none ∧ x.issued = [] ∨
      ∃ p, runner.invocation = some (.ok p))
    (hstdin : runner.buffer ++ stdin = (((if runner.invocation.isNone then
      [invokeMessage payload] else []) ++ responses.map answerMessage).map toRunner.write).flatMap
        (· ++ ['\n'])) :
    Linked toHost toRunner server brokenPipe timeoutMs payload s served
      { x with responses := responses, waiting := waiting, settled := settled }
      { w with runner := runner, stdin := stdin } := by
  refine { h with
    orderly := horderly
    callSeq_eq := hcallSeq.trans h.callSeq_eq
    pending_eq := hpending
    settled_eq := hsettled
    invocation := hinvocation
    stdin_eq := fun _ => hstdin
    host := ?_ }
  have hstate := h.host
  generalize w.host = host at hstate ⊢
  rcases hstate with ⟨hstdout, hkilled⟩ | ⟨hcompletion, hserved, hkilled⟩ | ⟨hsome, -⟩
  · exact .reading hstdout hkilled
  · exact .exiting hcompletion hserved hkilled
  · rw [hended] at hsome
    cases hsome

theorem read
    (h : Linked toHost toRunner server brokenPipe timeoutMs payload s served x w)
    (hended : w.ended = none) (length : Nat) :
    ∃ x', Linked toHost toRunner server brokenPipe timeoutMs payload s served x'
      { w with
        runner := w.runner.readChunk toRunner (w.stdin.take length)
        stdin := w.stdin.drop length } := by
  have hstdin := h.stdin_eq hended
  rw [← List.take_append_drop length w.stdin, ← List.append_assoc] at hstdin
  obtain ⟨left, hlines, hleft⟩ := splitting_cut toRunner.newline_not_mem_lines hstdin
  rw [Runner.readChunk]
  generalize (splitting ['\n']).output (w.runner.buffer ++ w.stdin.take length) = lines at hlines ⊢
  generalize (splitting ['\n']).rest (w.runner.buffer ++ w.stdin.take length) = buffer at hleft ⊢
  rcases h.invocation with ⟨hnone, hissued⟩ | ⟨p, hp⟩
  · -- no call was made before the function was started, and there is nothing but the start
    have hresponses : x.responses = [] := by
      have hanswered := h.orderly.answered
      have hlength := h.orderly.issued_length
      rw [hissued, List.length_nil] at hlength
      rw [← List.length_eq_zero_iff]
      omega
    have hunread : unread payload x w = [invokeMessage payload] := by
      simp [unread, hnone, hresponses]
    rw [hunread, List.map_singleton] at hlines
    rcases lines with _ | ⟨line, lines⟩
    · rw [List.nil_append] at hlines
      refine ⟨x, h.setRunner hended h.orderly rfl h.pending_eq h.settled_eq h.invocation ?_⟩
      simpa [hnone, hresponses, ← hlines] using hleft
    · rw [List.cons_append] at hlines
      obtain ⟨rfl, hnil⟩ := List.cons.inj hlines
      obtain ⟨rfl, rfl⟩ := List.append_eq_nil_iff.mp hnil.symm
      obtain ⟨p, hp⟩ := Runner.handleProtocolLine_invoke toRunner { w.runner with buffer := buffer }
        payload
      refine ⟨x, ?_⟩
      rw [List.foldl_cons, List.foldl_nil, hp, Runner.settleInvocation]
      refine h.setRunner hended h.orderly rfl h.pending_eq h.settled_eq (.inr ⟨p, ?_⟩) ?_
      · simp [hnone]
      · simpa [hresponses] using hleft
  · have hunread : unread payload x w = x.responses.map answerMessage := by
      simp [unread, hp]
    rw [hunread, List.map_map] at hlines
    obtain ⟨front, back, hresponses, hfront, hback⟩ := List.map_eq_append_iff.mp hlines
    rw [← List.map_map] at hfront hback
    obtain ⟨waiting, settled, horderly, hfold⟩ :=
      @foldl_responses _ _ _ _ toRunner _ { w.runner with buffer := buffer } h.orderly h.pending_eq
        h.settled_eq _ _ hresponses
    rw [← hfront, hfold]
    refine ⟨_, h.setRunner hended horderly rfl rfl rfl (.inr ⟨p, hp⟩) ?_⟩
    simpa [hp, ← hback] using hleft

theorem step
    (h : Linked toHost toRunner server brokenPipe timeoutMs payload s served x w)
    (event : SandboxEvent) :
    ∃ served' x', Linked toHost toRunner server brokenPipe timeoutMs payload s served' x'
      (w.step toHost toRunner server brokenPipe timeoutMs event) := by
  rcases event with ⟨action, args⟩ | length | outcome | success | _ | midway
  case call =>
    by_cases hrunning : w.running = true
    · exact ⟨served, _, h.call hrunning action args⟩
    · exact ⟨served, x, by rwa [Sandbox.step, if_neg hrunning]⟩
  case read =>
    by_cases hopen : (w.completion.isNone && w.ended.isNone) = true
    · obtain ⟨x', h'⟩ := h.read (by simp at hopen; exact hopen.2) length
      exact ⟨served, x', by rwa [Sandbox.step, if_pos hopen]⟩
    · exact ⟨served, x, by rwa [Sandbox.step, if_neg hopen]⟩
  case complete =>
    by_cases hrunning : w.running = true
    · exact ⟨served, x, h.complete hrunning outcome⟩
    · exact ⟨served, x, by rwa [Sandbox.step, if_neg hrunning]⟩
  case exit =>
    by_cases hended : w.ended.isNone = true
    · refine ⟨served, x, ?_⟩
      rw [Sandbox.step, if_pos hended]
      exact h.setEnded (by simpa using hended) success
    · exact ⟨served, x, by rwa [Sandbox.step, if_neg hended]⟩
  case serve => exact h.serve
  case timeout => exact ⟨served, x, h.timeout midway⟩

theorem run (events : List SandboxEvent) :
    ∃ served x, Linked toHost toRunner server brokenPipe timeoutMs payload s served x
      (Sandbox.run toHost toRunner server brokenPipe timeoutMs payload s events) := by
  induction events using List.reverseRecOn with
  | nil => exact ⟨[], _, of_start⟩
  | append_singleton events event ih =>
    obtain ⟨served, x, h⟩ := ih
    rw [Sandbox.run, List.foldl_concat]
    exact h.step event

end Linked

/-! ### A function that calls at once -/

theorem Runner.readChunk_invoke (link : JsonLink) (payload : Value) :
    ∃ p, ({} : Runner).readChunk link (link.write (invokeMessage payload) ++ ['\n']) =
      { invocation := some (.ok p) } := by
  have htext : link.write (invokeMessage payload) ++ ['\n'] =
      [link.write (invokeMessage payload)].flatMap (· ++ ['\n']) := by simp
  have hline : ∀ line ∈ [link.write (invokeMessage payload)], '\n' ∉ line := by
    intro line hline
    rw [List.mem_singleton.mp hline]
    exact link.newline_not_mem _
  have houtput := output_lines hline
  rw [← htext] at houtput
  have hrest : (splitting ['\n']).rest (link.write (invokeMessage payload) ++ ['\n']) = [] := by
    obtain ⟨left, hlines, hleft⟩ := splitting_cut hline ((List.append_nil _).trans htext)
    rw [houtput, List.self_eq_append_right] at hlines
    rwa [hlines, List.append_nil] at hleft
  obtain ⟨p, hp⟩ := Runner.handleProtocolLine_invoke link {} payload
  refine ⟨p, ?_⟩
  rw [Runner.readChunk, List.nil_append, houtput, hrest, List.foldl_cons, List.foldl_nil, hp]
  rfl

theorem Sandbox.run_first_call {σ : Type} (toHost toRunner : JsonLink) (server : HostCalls σ)
    (brokenPipe : String) (timeoutMs : Int) (payload : Value) (s : σ) (action : String)
    (args : Value) :
    ∃ length, (Sandbox.run toHost toRunner server brokenPipe timeoutMs payload s
      [.read length, .call action args, .serve]).store =
        (server.handle s (received toHost (action, args))).1 := by
  obtain ⟨p, hp⟩ := Runner.readChunk_invoke toRunner payload
  refine ⟨(toRunner.write (invokeMessage payload) ++ ['\n']).length, ?_⟩
  simp only [Sandbox.run, List.foldl_cons, List.foldl_nil, Sandbox.start, Sandbox.step,
    Option.isNone_none, Bool.and_self, if_true, List.take_length, List.drop_length, hp,
    Sandbox.running, List.nil_append, Sandbox.serve]
  rw [Sandbox.handleLine_call toHost toRunner server brokenPipe _ _ (action, args)]
  rfl

end Peanut

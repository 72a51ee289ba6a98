import Peanut.Library.Incremental
import Peanut.Library.Outcome
import Peanut.Text

/-!
# The realtime parser of the JS SDK

`PeanutRealtimeClient.subscribeTable` reads an event stream chunk by chunk, keeps the
block that is not complete, and hands the first `data:` line of each complete block to
`JSON.parse`.  Where the stream is cut into chunks makes no difference.
-/

namespace Peanut

open Incremental

/-! ### The decoder -/

/-- `TextDecoder` in stream mode: cut into chunks, bytes are decoded as they are in one
    piece. -/
structure TextDecoder where
  State : Type
  fresh : State
  decode : State → List UInt8 → List Char × State
  /-- What all of the bytes are decoded as. -/
  whole : List UInt8 → List Char
  decodes_whole : ∀ chunks : List (List UInt8),
    ((chunks.foldl (fun r chunk =>
      (r.1 ++ (decode r.2 chunk).1, (decode r.2 chunk).2)) ([], fresh)).1) = whole chunks.flatten

namespace TextDecoder

variable (decoder : TextDecoder)

/-- The texts that the chunks are decoded as. -/
def texts : decoder.State → List (List UInt8) → List (List Char)
  | _, [] => []
  | s, chunk :: chunks => (decoder.decode s chunk).1 :: texts (decoder.decode s chunk).2 chunks

theorem flatten_texts (chunks : List (List UInt8)) :
    (decoder.texts decoder.fresh chunks).flatten = decoder.whole chunks.flatten := by
  have hfold : ∀ (chunks : List (List UInt8)) (text : List Char) (s : decoder.State),
      (chunks.foldl (fun r chunk => (r.1 ++ (decoder.decode r.2 chunk).1,
        (decoder.decode r.2 chunk).2)) (text, s)).1 = text ++ (decoder.texts s chunks).flatten := by
    intro chunks
    induction chunks with
    | nil => intro text s; simp [texts]
    | cons chunk chunks ih =>
      intro text s
      rw [List.foldl_cons, ih, texts, List.flatten_cons, List.append_assoc]
  rw [← decoder.decodes_whole, hfold, List.nil_append]

end TextDecoder

/-- The characters that are complete, and the bytes from the first one on that is not.
    `skip` bytes of the last character are still to be passed over. -/
def decodeUtf8 : Nat → List UInt8 → List Char × List UInt8
  | _, [] => ([], [])
  | skip + 1, _ :: bytes => decodeUtf8 skip bytes
  | 0, first :: bytes =>
      match ByteArray.utf8DecodeChar? ⟨(first :: bytes).toArray⟩ 0 with
      | some c =>
          let r := decodeUtf8 (c.utf8Size - 1) bytes
          (c :: r.1, r.2)
      | none => ([], first :: bytes)

theorem decodeUtf8_append (more : List UInt8) : ∀ {bytes : List UInt8} {skip : Nat},
    skip ≤ bytes.length → decodeUtf8 skip (bytes ++ more) =
      ((decodeUtf8 skip bytes).1 ++ (decodeUtf8 0 ((decodeUtf8 skip bytes).2 ++ more)).1,
        (decodeUtf8 0 ((decodeUtf8 skip bytes).2 ++ more)).2) := by
  intro bytes
  induction bytes with
  | nil =>
    intro skip hskip
    rw [Nat.le_zero.mp hskip]
    rfl
  | cons first bytes ih =>
    intro skip hskip
    cases skip with
    | succ skip => exact ih (Nat.le_of_succ_le_succ hskip)
    | zero =>
      cases hfirst : ByteArray.utf8DecodeChar? ⟨(first :: bytes).toArray⟩ 0 with
      | none =>
        have hstuck : decodeUtf8 0 (first :: bytes) = ([], first :: bytes) := by
          rw [decodeUtf8, hfirst]
        rw [hstuck]
        rfl
      | some c =>
        have hsize : c.utf8Size - 1 ≤ bytes.length := by
          have := ByteArray.le_size_of_utf8DecodeChar?_eq_some hfirst
          simp only [ByteArray.size, List.size_toArray, List.length_cons] at this
          omega
        have happend : ByteArray.utf8DecodeChar? ⟨(first :: (bytes ++ more)).toArray⟩ 0 =
            some c := by
          have := ByteArray.utf8DecodeChar?_append_eq_some hfirst ⟨more.toArray⟩
          rwa [show (⟨(first :: bytes).toArray⟩ : ByteArray) ++ ⟨more.toArray⟩ =
            ⟨(first :: (bytes ++ more)).toArray⟩ by ext1; simp] at this
        rw [List.cons_append, decodeUtf8, happend, decodeUtf8, hfirst]
        simp only
        rw [ih hsize]
        rfl

/-- UTF-8 is read in pieces. -/
def utf8Reader : Reader UInt8 Char where
  output bytes := (decodeUtf8 0 bytes).1
  rest bytes := (decodeUtf8 0 bytes).2
  output_append _ b := by rw [decodeUtf8_append b (Nat.zero_le _)]
  rest_append _ b := by rw [decodeUtf8_append b (Nat.zero_le _)]

/-- A decoder that keeps the bytes of a character until all of them are there. -/
def utf8Decoder : TextDecoder where
  State := List UInt8
  fresh := []
  decode pending bytes := (utf8Reader.output (pending ++ bytes), utf8Reader.rest (pending ++ bytes))
  whole := utf8Reader.output
  decodes_whole chunks := by
    have hfold : ∀ (chunks : List (List UInt8)) (text : List Char) (pending : List UInt8),
        (chunks.foldl (fun r chunk => (r.1 ++ utf8Reader.output (r.2 ++ chunk),
          utf8Reader.rest (r.2 ++ chunk))) (text, pending)).1 =
        text ++ (utf8Reader.feed pending chunks).flatten := by
      intro chunks
      induction chunks with
      | nil => intro text pending; simp [Reader.feed]
      | cons chunk chunks ih =>
        intro text pending
        rw [List.foldl_cons, ih, Reader.feed, List.flatten_cons, List.append_assoc]
    have hnothing : utf8Reader.output [] = [] := rfl
    exact (hfold chunks [] []).trans (utf8Reader.feed_eq hnothing chunks)

/-! ### The loop -/

/-- White space and line ends as `String.prototype.trim` knows them. -/
def isJsWhitespace (c : Char) : Bool := (isWhitespace c && c != '\u0085') || c == '\uFEFF'

def jsTrim (text : List Char) : List Char :=
  ((text.dropWhile isJsWhitespace).reverse.dropWhile isJsWhitespace).reverse

section Loop

variable {ε Event : Type} (parse : String → Except ε Event)

/-- What a block brings: the event in its first `data:` line, if there is one. -/
def parseBlock (part : List Char) : Except ε (Option Event) :=
  match (part.splitOn '\n').find? fun line => "data:".toList.isPrefixOf line with
  | none => .ok none
  | some dataLine =>
      let payload := jsTrim (dataLine.drop "data:".length)
      if payload.isEmpty then .ok none else (parse (String.ofList payload)).map some

/-- The calls of `onEvent` for some blocks, and the error they end with. -/
def handleParts : List (List Char) → List Event × Option ε
  | [] => ([], none)
  | part :: parts =>
      match parseBlock parse part with
      | .error e => ([], some e)
      | .ok event =>
          let r := handleParts parts
          (event.toList ++ r.1, r.2)

/-- The loop of `subscribeTable`: the calls of `onEvent`, and the error that is reported. -/
def readLoop (decoder : TextDecoder) : decoder.State → List Char → List (List UInt8) →
    List Event × Option ε
  | _, _, [] => ([], none)
  | s, buffer, value :: reads =>
      let decoded := decoder.decode s value
      let parts := pieces "\n\n".toList 0 (buffer ++ decoded.1)
      match handleParts parse parts.dropLast with
      | (events, some e) => (events, some e)
      | (events, none) =>
          let r := readLoop decoder decoded.2 (parts.getLastD []) reads
          (events ++ r.1, r.2)

def subscribeTable (decoder : TextDecoder) (reads : List (List UInt8)) : List Event × Option ε :=
  readLoop parse decoder decoder.fresh [] reads

/-- The blocks of a text that a blank line ends. -/
def completeBlocks (text : List Char) : List (List Char) := (splitting "\n\n".toList).output text

/-! ### Chunks -/

variable {parse}

theorem handleParts_append {parts more : List (List Char)} {events : List Event} :
    (handleParts parse parts = (events, none) → handleParts parse (parts ++ more) =
      (events ++ (handleParts parse more).1, (handleParts parse more).2)) ∧
    ∀ e, handleParts parse parts = (events, some e) →
      handleParts parse (parts ++ more) = (events, some e) := by
  induction parts generalizing events with
  | nil =>
    refine ⟨?_, ?_⟩
    · rintro ⟨⟩
      rfl
    · rintro e ⟨⟩
  | cons part parts ih =>
    rw [List.cons_append, handleParts, handleParts]
    cases parseBlock parse part with
    | error e =>
      refine ⟨?_, ?_⟩
      · rintro ⟨⟩
      · intro e' h
        exact h
    | ok event =>
      simp only
      generalize hrest : handleParts parse parts = rest at ih
      obtain ⟨others, error⟩ := rest
      refine ⟨?_, ?_⟩
      · rintro ⟨⟩
        rw [ih.1 rfl, List.append_assoc]
      · rintro e ⟨⟩
        rw [ih.2 e rfl]

theorem readLoop_eq (decoder : TextDecoder) (s : decoder.State) (buffer : List Char)
    (reads : List (List UInt8)) :
    readLoop parse decoder s buffer reads =
      handleParts parse ((splitting "\n\n".toList).feed buffer
        (decoder.texts s reads)).flatten := by
  induction reads generalizing s buffer with
  | nil => rfl
  | cons value reads ih =>
    rw [readLoop, TextDecoder.texts, Reader.feed, List.flatten_cons]
    simp only [ih]
    generalize hparts : handleParts parse ((splitting "\n\n".toList).output
      (buffer ++ (decoder.decode s value).1)) = result
    obtain ⟨events, error⟩ := result
    have hhandled : handleParts parse (pieces "\n\n".toList 0
      (buffer ++ (decoder.decode s value).1)).dropLast = (events, error) := hparts
    rw [hhandled]
    cases error with
    | none =>
      rw [handleParts_append.1 hparts]
      rfl
    | some e => rw [handleParts_append.2 e hparts]

theorem subscribeTable_eq (decoder : TextDecoder) (reads : List (List UInt8)) :
    subscribeTable parse decoder reads =
      handleParts parse (completeBlocks (decoder.whole reads.flatten)) := by
  rw [subscribeTable, readLoop_eq, Reader.feed_eq _ rfl, List.nil_append, decoder.flatten_texts]
  rfl

end Loop

/-- A way of cutting a stream into chunks. -/
abbrev Chunking (bytes : List UInt8) := {chunks : List (List UInt8) // chunks.flatten = bytes}

/-- **The parser does not depend on chunking.**  However a stream is cut, the calls and
    the error are those of the complete blocks of the whole text. -/
theorem realtime_chunking_invariant {ε Event : Type} (parse : String → Except ε Event)
    (decoder : TextDecoder) (bytes : List UInt8) (chunks chunks' : Chunking bytes) :
    subscribeTable parse decoder chunks.val = subscribeTable parse decoder chunks'.val ∧
      subscribeTable parse decoder chunks.val =
        handleParts parse (completeBlocks (decoder.whole bytes)) := by
  rw [subscribeTable_eq, subscribeTable_eq, chunks.property, chunks'.property]
  exact ⟨rfl, rfl⟩

-- the blank line and the letter of two bytes are both cut
theorem realtime_chunking_invariant_utf8 :
    subscribeTable (fun payload => (.ok payload : Except Unit String)) utf8Decoder
      [[100, 97, 116, 97, 58, 195], [169, 10], [10, 100]] = (["é"], none) ∧
    subscribeTable (fun payload => (.ok payload : Except Unit String)) utf8Decoder
        [[100, 97, 116, 97, 58, 195], [169, 10], [10, 100]] =
      subscribeTable (fun payload => (.ok payload : Except Unit String)) utf8Decoder
        [[100, 97, 116, 97, 58, 195, 169, 10, 10, 100]] :=
  ⟨by decide +kernel, (realtime_chunking_invariant _ utf8Decoder
    [100, 97, 116, 97, 58, 195, 169, 10, 10, 100]
    ⟨[[100, 97, 116, 97, 58, 195], [169, 10], [10, 100]], rfl⟩
    ⟨[[100, 97, 116, 97, 58, 195, 169, 10, 10, 100]], rfl⟩).1⟩

end Peanut

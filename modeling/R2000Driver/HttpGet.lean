import Mathlib.Data.List.Infix
import R2000Driver.TextStream

/-!
# The HTTP exchange with the device

`R2000::HttpGet` over a socket. What the socket delivers is a list of
segments and the error that ends them; `readUntil` and the loops of the
function append segments to the stream one at a time. The property tree and
its JSON parser are a parameter.
-/

namespace R2000Driver.Http
open TextStream

inductive RequestResult
  | success
  | badRequest
  | forbidden
  | unknownCommand
  | timeout
  | failed
  | invalidDeviceResponse
  deriving DecidableEq, Repr

def RequestResult.code : RequestResult → UInt32
  | success => 200
  | badRequest => 400
  | forbidden => 403
  | unknownCommand => 404
  | timeout => 408
  | failed => 800
  | invalidDeviceResponse => 801

def requestResultFromCode (code : UInt32) : RequestResult :=
  if code = RequestResult.success.code then .success
  else if code = RequestResult.badRequest.code then .badRequest
  else if code = RequestResult.forbidden.code then .forbidden
  else if code = RequestResult.unknownCommand.code then .unknownCommand
  else if code = RequestResult.timeout.code then .timeout
  else if code = RequestResult.invalidDeviceResponse.code then .invalidDeviceResponse
  else .failed

/-- A property tree with the parser that reads it and the typed access to its entries. -/
class PropertyTree (Tree : Type) where
  empty : Tree
  readJson : List Char → Except String Tree
  getOptionalInt : Tree → String → Option ℤ
  getOptionalString : Tree → String → Option String

structure DeviceAnswer (Tree : Type) where
  requestResult : RequestResult
  propertyTree : Tree
  deriving DecidableEq, Repr

section
variable {Tree : Type} [PropertyTree Tree]

def DeviceAnswer.ofResult (result : RequestResult) : DeviceAnswer Tree :=
  ⟨result, PropertyTree.empty⟩

def errorCode : String := "error_code"
def errorText : String := "error_text"

def verifyErrorCode (tree : Tree) : Bool :=
  PropertyTree.getOptionalInt tree errorCode == some 0 &&
    PropertyTree.getOptionalString tree errorText == some "success"

end

structure Segment where
  first : Char
  rest : List Char
  deriving DecidableEq, Repr

def Segment.chars (s : Segment) : List Char := s.first :: s.rest

inductive NetworkError
  | eof
  | other
  deriving DecidableEq, Repr

/-- The segments received in answer to a request and the error behind them. -/
structure Exchange where
  segments : List Segment
  ending : NetworkError
  deriving DecidableEq, Repr

abbrev Socket := List Char → Option Exchange

def chars (segments : List Segment) : List Char := segments.flatMap Segment.chars

/-- Receive until the delimiter is in the buffer: the buffer, and the segments not yet received. -/
def readUntil (delimiter : List Char) : List Segment → List Char → Option (List Char × List Segment)
  | [], buffer => if delimiter <:+: buffer then some (buffer, []) else none
  | segment :: segments, buffer =>
    if delimiter <:+: buffer then some (buffer, segment :: segments)
    else readUntil delimiter segments (buffer ++ segment.chars)

theorem readUntil_some {delimiter buffer received : List Char} {segments left : List Segment}
    (h : readUntil delimiter segments buffer = some (received, left)) :
    received ++ chars left = buffer ++ chars segments ∧ delimiter <:+: received := by
  induction segments generalizing buffer with
  | nil =>
    rw [readUntil] at h
    split_ifs at h with hin
    cases h
    exact ⟨rfl, hin⟩
  | cons segment segments ih =>
    rw [readUntil] at h
    split_ifs at h with hin
    · cases h
      exact ⟨rfl, hin⟩
    · obtain ⟨hchars, hin⟩ := ih h
      refine ⟨?_, hin⟩
      rw [hchars, List.append_assoc]
      rfl

theorem readUntil_of_infix {delimiter buffer : List Char} {segments : List Segment}
    (h : delimiter <:+: buffer ++ chars segments) :
    ∃ received left, readUntil delimiter segments buffer = some (received, left) := by
  induction segments generalizing buffer with
  | nil =>
    rw [chars, List.flatMap_nil, List.append_nil] at h
    exact ⟨buffer, [], by rw [readUntil, if_pos h]⟩
  | cons segment segments ih =>
    rw [readUntil]
    by_cases hin : delimiter <:+: buffer
    · exact ⟨buffer, segment :: segments, if_pos hin⟩
    · rw [if_neg hin]
      apply ih
      rwa [List.append_assoc]

def readHeader (stream : TextStream) (header : List Char) : List Char × TextStream :=
  match _hline : stream.getLine.1 with
  | none => (header, stream.getLine.2)
  | some line =>
    if line = ['\r'] then (header, stream.getLine.2)
    else readHeader stream.getLine.2 (header ++ line ++ ['\n'])
termination_by stream.buffer.length
decreasing_by exact getLine_length_lt _hline

def readContent (stream : TextStream) (content : List Char) : List Char × TextStream :=
  match _hline : stream.getLine.1 with
  | none => (content, stream.getLine.2)
  | some line => readContent stream.getLine.2 (content ++ line)
termination_by stream.buffer.length
decreasing_by exact getLine_length_lt _hline

def receiveContent : List Segment → TextStream → List Char → List Char
  | [], _, content => content
  | segment :: segments, stream, content =>
    let received := readContent (ofBuffer (stream.buffer ++ segment.chars)) content
    receiveContent segments received.2 received.1

theorem filter_of_no_end {line : List Char} (h : '\n' ∉ line) :
    line.filter (fun c => c != '\n') = line := by
  rw [List.filter_eq_self]
  intro c hc
  rw [bne_iff_ne]
  rintro rfl
  exact h hc

theorem readContent_of_none {stream next : TextStream} (content : List Char)
    (h : stream.getLine = (none, next)) : readContent stream content = (content, next) := by
  rw [readContent]
  split
  · rw [h]
  · next line hline =>
    rw [h] at hline
    cases hline

theorem readContent_of_line {stream next : TextStream} {line : List Char} (content : List Char)
    (h : stream.getLine = (some line, next)) :
    readContent stream content = readContent next (content ++ line) := by
  rw [readContent]
  split
  · next hline =>
    rw [h] at hline
    cases hline
  · next line' hline =>
    rw [h] at hline ⊢
    obtain rfl : line = line' := Option.some.inj hline
    rfl

theorem readContent_ofBuffer (buffer content : List Char) :
    readContent (ofBuffer buffer) content =
      (content ++ buffer.filter (fun c => c != '\n'), ⟨[], true, true⟩) := by
  induction hn : buffer.length using Nat.strongRecOn generalizing buffer content with
  | ind n ih =>
    rcases line_cases buffer with hend | ⟨line, rest, rfl, hline⟩
    · have hget := getLine_of_no_end hend
      rw [filter_of_no_end hend]
      cases buffer with
      | nil => rw [readContent_of_none content hget, List.append_nil, List.isEmpty_nil]
      | cons c buffer =>
        have hlast : TextStream.getLine ⟨[], true, false⟩ = (none, ⟨[], true, true⟩) :=
          getLine_of_not_good rfl
        rw [readContent_of_line content hget, List.isEmpty_cons, readContent_of_none _ hlast]
    · have hrest : rest.length < n := by
        rw [← hn, List.length_append, List.length_cons]
        omega
      rw [readContent_of_line content (getLine_of_line hline rest), ih _ hrest rest _ rfl,
        List.filter_append, filter_of_no_end hline, List.append_assoc]
      rfl

theorem receiveContent_eq (segments : List Segment) (stream : TextStream) (content : List Char)
    (h : stream.buffer = []) : receiveContent segments stream content =
      content ++ (chars segments).filter fun c => c != '\n' := by
  induction segments generalizing stream content with
  | nil => exact (List.append_nil _).symm
  | cons segment segments ih =>
    rw [receiveContent, h, List.nil_append, readContent_ofBuffer, ih _ _ rfl]
    simp [chars]

def behindEmptyLine : Bool → List Char → Option (List Char)
  | _, [] => none
  | true, '\r' :: '\n' :: rest => some rest
  | _, c :: rest => behindEmptyLine (c == '\n') rest

theorem behindEmptyLine_cons {fresh : Bool} {c : Char} {rest : List Char}
    (h : ∀ more, fresh = true → c = '\r' → rest ≠ '\n' :: more) :
    behindEmptyLine fresh (c :: rest) = behindEmptyLine (c == '\n') rest := by
  rw [behindEmptyLine]
  exact h

theorem behindEmptyLine_append {fresh : Bool} {text rest : List Char}
    (h : behindEmptyLine fresh text = some rest) (more : List Char) :
    behindEmptyLine fresh (text ++ more) = some (rest ++ more) := by
  fun_induction behindEmptyLine fresh text with
  | case1 => cases h
  | case2 r =>
    cases h
    rfl
  | case3 fresh c r hne ih =>
    rw [List.cons_append, behindEmptyLine_cons, ih h]
    intro l hfresh hc hr
    cases r with
    | nil => cases h
    | cons d r =>
      obtain ⟨rfl, -⟩ := List.cons.inj hr
      exact hne r hfresh hc rfl

theorem behindEmptyLine_of_no_end {fresh : Bool} {text : List Char} (h : '\n' ∉ text) :
    behindEmptyLine fresh text = none := by
  fun_induction behindEmptyLine fresh text with
  | case1 => rfl
  | case2 r => simp at h
  | case3 fresh c r hne ih => exact ih fun hr => h (List.mem_cons_of_mem c hr)

theorem behindEmptyLine_skip {line : List Char} (h : '\n' ∉ line) (rest : List Char) :
    behindEmptyLine false (line ++ '\n' :: rest) = behindEmptyLine true rest := by
  induction line with
  | nil => rfl
  | cons c line ih =>
    have hc : (c == '\n') = false := by
      rw [beq_eq_false_iff_ne]
      rintro rfl
      exact h List.mem_cons_self
    rw [List.cons_append, behindEmptyLine_cons (fun _ hfresh => by cases hfresh), hc]
    exact ih fun hl => h (List.mem_cons_of_mem c hl)

theorem behindEmptyLine_empty (rest : List Char) :
    behindEmptyLine true (['\r'] ++ '\n' :: rest) = some rest := rfl

theorem behindEmptyLine_line {line : List Char} (h : '\n' ∉ line) (hne : line ≠ ['\r'])
    (rest : List Char) :
    behindEmptyLine true (line ++ '\n' :: rest) = behindEmptyLine true rest := by
  cases line with
  | nil => rfl
  | cons c line =>
    have hc : (c == '\n') = false := by
      rw [beq_eq_false_iff_ne]
      rintro rfl
      exact h List.mem_cons_self
    have hline : '\n' ∉ line := fun hl => h (List.mem_cons_of_mem c hl)
    rw [List.cons_append, behindEmptyLine_cons, hc, behindEmptyLine_skip hline]
    intro more _ hcr hl
    cases line with
    | nil => exact hne (by rw [hcr])
    | cons d line =>
      obtain ⟨rfl, -⟩ := List.cons.inj hl
      exact hline List.mem_cons_self

theorem behindEmptyLine_of_infix {fresh : Bool} {text : List Char}
    (h : ['\r', '\n', '\r', '\n'] <:+: text) : ∃ rest, behindEmptyLine fresh text = some rest := by
  obtain ⟨before, behind, rfl⟩ := h
  induction before generalizing fresh with
  | nil =>
    cases fresh with
    | false => exact ⟨behind, rfl⟩
    | true => exact ⟨_, rfl⟩
  | cons c before ih =>
    by_cases hempty : ∃ more, fresh = true ∧ c = '\r' ∧
        before ++ ['\r', '\n', '\r', '\n'] ++ behind = '\n' :: more
    · obtain ⟨more, rfl, rfl, hmore⟩ := hempty
      exact ⟨more, by rw [List.cons_append, List.cons_append, hmore]; rfl⟩
    · obtain ⟨rest, hrest⟩ : ∃ rest, behindEmptyLine (c == '\n')
          (before ++ ['\r', '\n', '\r', '\n'] ++ behind) = some rest := ih
      refine ⟨rest, ?_⟩
      rw [List.cons_append, List.cons_append, behindEmptyLine_cons, hrest]
      intro more hfresh hc hmore
      exact hempty ⟨more, hfresh, hc, hmore⟩

theorem readHeader_of_empty {stream next : TextStream} (header : List Char)
    (h : stream.getLine = (some ['\r'], next)) : readHeader stream header = (header, next) := by
  rw [readHeader]
  split
  · rw [h]
  · next line hline =>
    rw [h] at hline ⊢
    obtain rfl : ['\r'] = line := Option.some.inj hline
    rw [if_pos rfl]

theorem readHeader_of_line {stream next : TextStream} {line : List Char} (header : List Char)
    (h : stream.getLine = (some line, next)) (hne : line ≠ ['\r']) :
    readHeader stream header = readHeader next (header ++ line ++ ['\n']) := by
  rw [readHeader]
  split
  · next hline =>
    rw [h] at hline
    cases hline
  · next line' hline =>
    rw [h] at hline ⊢
    obtain rfl : line = line' := Option.some.inj hline
    rw [if_neg hne]

theorem readHeader_ofBuffer {buffer rest : List Char} (h : behindEmptyLine true buffer = some rest)
    (header : List Char) : (readHeader (ofBuffer buffer) header).2 = ofBuffer rest := by
  induction hn : buffer.length using Nat.strongRecOn generalizing buffer header with
  | ind n ih =>
    rcases line_cases buffer with hend | ⟨line, more, rfl, hline⟩
    · rw [behindEmptyLine_of_no_end hend] at h
      cases h
    · by_cases hempty : line = ['\r']
      · subst hempty
        rw [behindEmptyLine_empty] at h
        cases h
        rw [readHeader_of_empty header (getLine_of_line hline rest)]
      · have hmore : more.length < n := by
          rw [← hn, List.length_append, List.length_cons]
          omega
        rw [behindEmptyLine_line hline hempty] at h
        rw [readHeader_of_line header (getLine_of_line hline more) hempty]
        exact ih _ hmore h _ rfl

def spaced (content : List Char) : List Char := content.map fun c => if c = '\r' then ' ' else c

def requestText (requestPath : List Char) : List Char :=
  "GET ".toList ++ requestPath ++ " HTTP/1.0\r\n\r\n".toList

section
variable {Tree : Type} [PropertyTree Tree]

def answerOf (statusCode : ℤ) (content : List Char) : Except String (DeviceAnswer Tree) :=
  let responseCode := requestResultFromCode (UInt32.ofInt statusCode)
  if responseCode ≠ .success then .ok (.ofResult responseCode)
  else match PropertyTree.readJson content with
    | .error what => .error what
    | .ok propertyTree =>
      if !verifyErrorCode propertyTree then .ok (.ofResult responseCode)
      else .ok ⟨responseCode, propertyTree⟩

def httpGet (socket : Socket) (requestPath : List Char) : Except String (DeviceAnswer Tree) :=
  match socket (requestText requestPath) with
  | none => .ok (.ofResult .failed)
  | some exchange =>
    match readUntil ['\r', '\n'] exchange.segments [] with
    | none => .ok (.ofResult .failed)
    | some (response, segments) =>
      let (httpVersion, responseStream) := (ofBuffer response).readWord
      let (statusCode, responseStream) := responseStream.readInt
      let (_, responseStream) := responseStream.getLine
      if responseStream.failbit || httpVersion.take 5 ≠ "HTTP/".toList then
        .ok (.ofResult .invalidDeviceResponse)
      else
        match readUntil ['\r', '\n', '\r', '\n'] segments responseStream.buffer with
        | none => .ok (.ofResult .failed)
        | some (response, segments) =>
          let (_, responseStream) := readHeader { responseStream with buffer := response } []
          let (content, responseStream) := readContent responseStream []
          let content := receiveContent segments responseStream content
          if exchange.ending ≠ .eof then .ok (.ofResult .failed)
          else answerOf statusCode (spaced content)

end

end R2000Driver.Http

import CcSwitchRouter.Lib.Framing
import CcSwitchRouter.Lib.Text

namespace CcSwitchRouter.ProxyStream

abbrev Bytes := List UInt8

inductive ProxyStreamProtocol
  | openAiResponses | openAiChat | openAiImages | anthropicMessages | gemini
deriving DecidableEq, Repr

structure ProxyStreamObservation where
  meaningfulProgress : Bool
  terminalChunkEnd : Option Nat
deriving DecidableEq, Repr

inductive ProxyStreamParseError
  | eventTooLarge
deriving DecidableEq, Repr

structure ParsedEvent where
  meaningful : Bool
  terminal : Bool
deriving DecidableEq, Repr

/-! ### Payloads -/

inductive Value
  | null
  | bool (value : Bool)
  | number (literal : String)
  | string (text : String)
  | array (items : List Value)
  | object (fields : List (String × Value))

namespace Value

def get (key : String) : Value → Option Value
  | object fields => fields.lookup key
  | _ => none

def asStr : Value → Option String
  | string text => some text
  | _ => none

def asArray : Value → Option (List Value)
  | array items => some items
  | _ => none

def isNull : Value → Bool
  | null => true
  | _ => false

/-- `Value::pointer` along a path of object keys. -/
def pointer (path : List String) (value : Value) : Option Value :=
  path.foldlM (fun value key => value.get key) value

end Value

def isKeepaliveName (value : String) : Bool :=
  Text.lower value == "ping" || Text.lower value == "keepalive"

section Payload

-- `serde_json::from_str`
variable (fromStr : String → Option Value)

def payloadIsKeepalive (payload : String) : Bool :=
  let payload := Text.trim payload
  if isKeepaliveName payload then true
  else
    ((fromStr payload).bind fun value =>
      ((value.get "type").or (value.get "event")).bind Value.asStr).any isKeepaliveName

def responsesEnds : List String :=
  ["response.completed", "response.failed", "response.incomplete", "response.cancelled",
    "response.canceled"]

def imagesEnds : List String :=
  ["image_generation.completed", "image_generation.failed", "image_generation.cancelled",
    "image_generation.canceled", "image_edit.completed", "image_edit.failed",
    "image_edit.cancelled", "image_edit.canceled", "error"]

def declaredEventIsTerminal (protocol : ProxyStreamProtocol) (event : String) : Bool :=
  match protocol with
  | .openAiResponses => responsesEnds.contains event || event == "error"
  | .openAiChat => event == "error"
  | .openAiImages => imagesEnds.contains event
  | .anthropicMessages => event == "message_stop" || event == "error"
  | .gemini => event == "error"

def saysReason (reason : Option Value) : Bool :=
  (reason.bind Value.asStr).any fun reason => Text.trim reason != ""

def geminiTerminal (value : Value) : Bool :=
  let value := (value.get "response").getD value
  let promptBlocked := saysReason <|
    (value.pointer ["promptFeedback", "blockReason"]).or
      (value.pointer ["prompt_feedback", "block_reason"])
  let candidateFinished := ((value.get "candidates").bind Value.asArray).any fun candidates =>
    !candidates.isEmpty && candidates.all fun candidate =>
      saysReason ((candidate.get "finishReason").or (candidate.get "finish_reason"))
  promptBlocked || candidateFinished

def payloadIsTerminal (protocol : ProxyStreamProtocol) (payload : String) : Bool :=
  if payload == "[DONE]" then
    protocol == .openAiResponses || protocol == .openAiChat
  else match fromStr payload with
    | none => false
    | some value =>
      let eventType := (value.get "type").bind Value.asStr
      if (value.get "error").any (fun error => !error.isNull) || eventType == some "error" then true
      else match protocol with
        | .openAiResponses =>
          let status := (((value.get "response").bind (Value.get "status")).or
            (value.get "status")).bind Value.asStr
          eventType.any responsesEnds.contains ||
            status.any ["completed", "failed", "incomplete", "cancelled", "canceled"].contains
        | .openAiChat => false
        | .openAiImages => eventType.any imagesEnds.contains
        | .anthropicMessages => eventType == some "message_stop" || eventType == some "error"
        | .gemini => geminiTerminal value

/-! ### Events -/

def isAsciiWhitespace (byte : UInt8) : Bool := [0x20, 0x09, 0x0A, 0x0C, 0x0D].contains byte

def sseField (line : List Char) (field : String) : Option (List Char) := do
  let rest ← line.dropPrefix? field.toList
  let rest ← rest.dropPrefix? [':']
  some ((rest.dropPrefix? [' ']).getD rest)

structure EventFields where
  declaredEvent : Option String := none
  data : List String := []
  hasNonCommentField : Bool := false

def EventFields.addLine (fields : EventFields) (rawLine : List Char) : EventFields :=
  let line := (rawLine.dropSuffix? ['\r']).getD rawLine
  if line.isEmpty || line.head? == some ':' then fields
  else
    let fields := { fields with hasNonCommentField := true }
    match sseField line "event" with
    | some value => { fields with declaredEvent := some (Text.trim (String.ofList value)) }
    | none => match sseField line "data" with
      | some value =>
        -- only the front of a data line is trimmed
        { fields with
          data := fields.data ++ [String.ofList (value.dropWhile Text.isWhitespace)] }
      | none => fields

def parseEvent (protocol : ProxyStreamProtocol) (event : Bytes) : ParsedEvent :=
  match String.fromUTF8? ⟨event.toArray⟩ with
  | none => { meaningful := event.any fun byte => !isAsciiWhitespace byte, terminal := false }
  | some text =>
    let fields := (text.toList.splitOn '\n').foldl EventFields.addLine {}
    let payload :=
      if fields.data.isEmpty then
        let trimmed := Text.trim text
        if trimmed.toList.head? == some '\x7b' || trimmed == "[DONE]" then some trimmed else none
      else some (Text.trim ("\n".intercalate fields.data))
    let declaredKeepalive := fields.declaredEvent.any isKeepaliveName
    let payloadKeepalive := payload.any (payloadIsKeepalive fromStr)
    { meaningful := !declaredKeepalive && !payloadKeepalive &&
        (payload.any (· != "") || fields.hasNonCommentField && fields.declaredEvent.isSome)
      terminal := fields.declaredEvent.any (declaredEventIsTerminal protocol) ||
        payload.any (payloadIsTerminal fromStr protocol) }

end Payload

/-! ### Boundaries -/

def delimiterAt (buffer : Bytes) : Option Nat :=
  if buffer.take 2 = [0x0A, 0x0A] then some 2
  else if buffer.take 4 = [0x0D, 0x0A, 0x0D, 0x0A] then some 4
  else none

def nextEventBoundary (buffer : Bytes) (scanFrom : Nat) : Option (Nat × Nat) :=
  let start := min scanFrom buffer.length
  (List.range' start (buffer.length - start)).findSome? fun index =>
    (delimiterAt (buffer.drop index)).map fun length => (index, length)

inductive Marker : Nat → Bytes → Prop
  | lf : Marker 2 [0x0A, 0x0A]
  | crlf : Marker 4 [0x0D, 0x0A, 0x0D, 0x0A]

theorem Marker.length {n : Nat} {word : Bytes} (h : Marker n word) : word.length = n := by
  cases h <;> rfl

theorem delimiterAt_eq_some {buffer : Bytes} {n : Nat} :
    delimiterAt buffer = some n ↔ ∃ word, Marker n word ∧ word <+: buffer := by
  have htake (word : Bytes) : buffer.take word.length = word ↔ word <+: buffer :=
    ⟨fun h => h ▸ List.take_prefix _ _, fun h => (List.prefix_iff_eq_take.1 h).symm⟩
  have hlf := htake [0x0A, 0x0A]
  have hcrlf := htake [0x0D, 0x0A, 0x0D, 0x0A]
  simp only [List.length_cons, List.length_nil, Nat.zero_add, Nat.reduceAdd] at hlf hcrlf
  simp only [delimiterAt, hlf, hcrlf]
  constructor
  · intro h
    split at h
    · rename_i hword
      cases h
      exact ⟨_, .lf, hword⟩
    · split at h
      · rename_i hword
        cases h
        exact ⟨_, .crlf, hword⟩
      · cases h
  · rintro ⟨word, hmarker, hword⟩
    cases hmarker with
    | lf => rw [if_pos hword]
    | crlf =>
      rw [if_neg, if_pos hword]
      -- the two delimiters start with different bytes
      intro hother
      have := List.prefix_of_prefix_length_le hother hword (by decide)
      revert this
      decide

theorem Marker.no_inner {n m i : Nat} {word short inner : Bytes} (hword : Marker n word)
    (hshort : short <+: word) (hinner : Marker m inner) (h : inner <+: short.drop i) :
    short = word := by
  by_cases hnm : n ≤ m
  · apply hshort.eq_of_length_le
    have hlen := h.length_le
    rw [List.length_drop, hinner.length] at hlen
    rw [hword.length]
    omega
  · -- two line feeds do not follow each other in the longer delimiter
    have hin : inner <:+: word :=
      h.isInfix.trans ((List.drop_suffix _ _).isInfix.trans hshort.isInfix)
    exfalso
    cases hword <;> cases hinner <;> revert hin hnm <;> decide

def sseDelimiter : Framing.Delimiter UInt8 where
  at? := delimiterAt
  window := 4
  pos h := by
    obtain ⟨word, hmarker, -⟩ := delimiterAt_eq_some.1 h
    cases hmarker <;> omega
  fits h := by
    obtain ⟨word, hmarker, hword⟩ := delimiterAt_eq_some.1 h
    rw [← hmarker.length]
    exact hword.length_le
  append ys h := by
    obtain ⟨word, hmarker, hword⟩ := delimiterAt_eq_some.1 h
    exact delimiterAt_eq_some.2 ⟨word, hmarker, hword.trans (List.prefix_append _ _)⟩
  whole h hn := by
    obtain ⟨word, hmarker, hword⟩ := delimiterAt_eq_some.1 h
    rw [← hmarker.length] at hn
    exact delimiterAt_eq_some.2
      ⟨word, hmarker, List.prefix_of_prefix_length_le hword (List.prefix_append _ _) hn⟩
  decided ys hxs := by
    simp only [delimiterAt]
    rw [List.take_append_of_le_length (by omega), List.take_append_of_le_length (by omega)]
  first i h h' := by
    obtain ⟨word, hmarker, hword⟩ := delimiterAt_eq_some.1 h
    obtain ⟨inner, hinner, hlater⟩ := delimiterAt_eq_some.1 h'
    apply delimiterAt_eq_some.2
    rcases List.prefix_or_prefix_of_prefix hword (List.prefix_append _ _) with hle | hle
    · exact ⟨word, hmarker, hle⟩
    · have heq := hmarker.no_inner hle hinner hlater
      exact ⟨word, hmarker, heq ▸ List.prefix_rfl⟩

theorem nextEventBoundary_eq (buffer : Bytes) (scanFrom : Nat) :
    nextEventBoundary buffer scanFrom = sseDelimiter.boundary? buffer scanFrom := by
  simp only [nextEventBoundary, Framing.Delimiter.boundary?]
  rcases Nat.le_total scanFrom buffer.length with h | h
  · rw [Nat.min_eq_left h]
    rfl
  · rw [Nat.min_eq_right h, Nat.sub_self, Nat.sub_eq_zero_of_le h]
    rfl

/-! ### The detector -/

structure ProxyStreamDetector where
  protocol : ProxyStreamProtocol
  pending : Bytes
  scanFrom : Nat
  maxEventBytes : Nat

namespace ProxyStreamDetector

def withLimit (protocol : ProxyStreamProtocol) (maxEventBytes : Nat) : ProxyStreamDetector :=
  { protocol, pending := [], scanFrom := 0, maxEventBytes }

variable (fromStr : String → Option Value)

/-- The loop of `push` over the complete events, with the bytes consumed so far. -/
def pushLoop (previousPending chunkLen : Nat) (detector : ProxyStreamDetector) (consumed : Nat)
    (meaningfulProgress : Bool) :
    Except ProxyStreamParseError (ProxyStreamObservation × ProxyStreamDetector) :=
  match _h : nextEventBoundary detector.pending detector.scanFrom with
  | some (eventEnd, delimiterLen) =>
    if detector.maxEventBytes < eventEnd then .error .eventTooLarge
    else
      let boundaryEnd := eventEnd + delimiterLen
      let parsed := parseEvent fromStr detector.protocol (detector.pending.take eventEnd)
      let meaningfulProgress := meaningfulProgress || parsed.meaningful
      if parsed.terminal then
        .ok ({ meaningfulProgress
               terminalChunkEnd := some (min (consumed + boundaryEnd - previousPending) chunkLen) },
          { detector with pending := [], scanFrom := 0 })
      else
        pushLoop previousPending chunkLen
          { detector with pending := detector.pending.drop boundaryEnd, scanFrom := 0 }
          (consumed + boundaryEnd) meaningfulProgress
  | none =>
    if detector.maxEventBytes < detector.pending.length then .error .eventTooLarge
    else
      .ok ({ meaningfulProgress, terminalChunkEnd := none },
        { detector with scanFrom := detector.pending.length - 3 })
termination_by detector.pending.length
decreasing_by
  rw [nextEventBoundary_eq] at _h
  have := Framing.Delimiter.boundary?_bounds _h
  rw [List.length_drop]
  omega

def push (detector : ProxyStreamDetector) (chunk : Bytes) :
    Except ProxyStreamParseError (ProxyStreamObservation × ProxyStreamDetector) :=
  pushLoop fromStr detector.pending.length chunk.length
    { detector with pending := detector.pending ++ chunk } 0 false

end ProxyStreamDetector

/-- What the response pump learns from a stream: whether it saw meaningful progress, and how many
bytes it passes on when it stops at a terminal event. -/
structure PumpResult where
  meaningfulProgressSeen : Bool
  terminalEnd : Option Nat
deriving DecidableEq, Repr

/-- The response pump over the chunks of a stream; `sent` bytes went by before. -/
def pump (fromStr : String → Option Value) (detector : ProxyStreamDetector) (sent : Nat)
    (meaningfulProgressSeen : Bool) : List Bytes → Except ProxyStreamParseError PumpResult
  | [] => .ok { meaningfulProgressSeen, terminalEnd := none }
  | chunk :: chunks => do
    let (observation, detector) ← detector.push fromStr chunk
    let meaningfulProgressSeen := meaningfulProgressSeen || observation.meaningfulProgress
    match observation.terminalChunkEnd with
    | some chunkEnd => .ok { meaningfulProgressSeen, terminalEnd := some (sent + chunkEnd) }
    | none => pump fromStr detector (sent + chunk.length) meaningfulProgressSeen chunks

end CcSwitchRouter.ProxyStream

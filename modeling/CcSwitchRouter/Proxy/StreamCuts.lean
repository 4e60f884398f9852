import CcSwitchRouter.Proxy.StreamDetector

namespace CcSwitchRouter.ProxyStream

open Framing

abbrev Event := Placed UInt8

def events (stream : Bytes) : List Event := place 0 (sseDelimiter.frames stream).1

variable (fromStr : String → Option Value) (protocol : ProxyStreamProtocol) (maxEventBytes : Nat)

def firstTerminalEnd (stream : Bytes) : Option Nat :=
  ((events stream).find? fun event => (parseEvent fromStr protocol event.body).terminal).map
    Placed.stop

def observe (seen : Bool) : List Event → Except ProxyStreamParseError PumpResult
  | [] => .ok ⟨seen, none⟩
  | event :: later =>
    let parsed := parseEvent fromStr protocol event.body
    if maxEventBytes < event.body.length then .error .eventTooLarge
    else if parsed.terminal then .ok ⟨seen || parsed.meaningful, some event.stop⟩
    else observe (seen || parsed.meaningful) later

section Observe

variable {fromStr protocol maxEventBytes} {seen : Bool} {es later : List Event} {r : PumpResult}

theorem observe_terminalEnd (h : observe fromStr protocol maxEventBytes seen es = .ok r) :
    r.terminalEnd = (es.find? fun event => (parseEvent fromStr protocol event.body).terminal).map
      Placed.stop := by
  induction es generalizing seen with
  | nil =>
    cases h
    rfl
  | cons event later ih =>
    simp only [observe] at h
    split at h
    · cases h
    · split at h
      · rename_i hterminal
        cases h
        simp only [List.find?_cons, hterminal, Option.map_some]
      · rename_i hterminal
        simp only [List.find?_cons, hterminal]
        exact ih h

theorem observe_tooLarge {before : List Event} {event : Event}
    (hbefore : ∀ e ∈ before, (parseEvent fromStr protocol e.body).terminal = false)
    (hlarge : maxEventBytes < event.body.length) :
    observe fromStr protocol maxEventBytes seen (before ++ event :: later) =
      .error .eventTooLarge := by
  induction before generalizing seen with
  | nil =>
    simp only [List.nil_append, observe]
    rw [if_pos hlarge]
  | cons e before ih =>
    simp only [List.cons_append, observe]
    split
    · rfl
    · rw [if_neg (by rw [hbefore e List.mem_cons_self]; exact Bool.false_ne_true)]
      apply ih
      intro e' he'
      exact hbefore e' (List.mem_cons_of_mem _ he')

theorem observe_append_none {seen' : Bool}
    (h : observe fromStr protocol maxEventBytes seen es = .ok ⟨seen', none⟩) :
    observe fromStr protocol maxEventBytes seen (es ++ later) =
      observe fromStr protocol maxEventBytes seen' later := by
  induction es generalizing seen with
  | nil =>
    cases h
    rfl
  | cons event es ih =>
    simp only [observe, List.cons_append] at h ⊢
    split at h
    · cases h
    · rename_i hsmall
      split at h
      · cases h
      · rename_i hterminal
        rw [if_neg hsmall, if_neg hterminal]
        exact ih h

theorem observe_append_some {seen' : Bool} {stop : Nat}
    (h : observe fromStr protocol maxEventBytes seen es = .ok ⟨seen', some stop⟩) :
    observe fromStr protocol maxEventBytes seen (es ++ later) = .ok ⟨seen', some stop⟩ := by
  induction es generalizing seen with
  | nil => cases h
  | cons event es ih =>
    simp only [observe, List.cons_append] at h ⊢
    split at h
    · cases h
    · rename_i hsmall
      rw [if_neg hsmall]
      split at h
      · rename_i hterminal
        rw [if_pos hterminal]
        exact h
      · rename_i hterminal
        rw [if_neg hterminal]
        exact ih h

theorem exists_of_observe_some {seen' : Bool} {stop : Nat}
    (h : observe fromStr protocol maxEventBytes seen es = .ok ⟨seen', some stop⟩) :
    ∃ event ∈ es, event.stop = stop := by
  have hend := (observe_terminalEnd h).symm
  obtain ⟨event, hfind, hstop⟩ := Option.map_eq_some_iff.1 hend
  exact ⟨event, List.mem_of_find?_eq_some hfind, hstop⟩

theorem observe_shift (k : Nat) (earlier : Bool) {start : Nat} {fs : List (Frame UInt8)} :
    observe fromStr protocol maxEventBytes (earlier || seen) (place (k + start) fs) =
      (observe fromStr protocol maxEventBytes seen (place start fs)).map fun r =>
        ⟨earlier || r.meaningfulProgressSeen, r.terminalEnd.map (k + ·)⟩ := by
  induction fs generalizing start seen with
  | nil => rfl
  | cons f fs ih =>
    simp only [place, observe]
    split
    · rfl
    · split
      · simp only [Except.map, Option.map_some, Bool.or_assoc, Nat.add_assoc]
      · rw [Bool.or_assoc, Nat.add_assoc]
        exact ih

end Observe

namespace ProxyStreamDetector

variable {fromStr}

def Scanned (detector : ProxyStreamDetector) : Prop :=
  sseDelimiter.boundary? detector.pending 0 = none ∧
    detector.scanFrom ≤ detector.pending.length - 3

/-- How `push` ends when the events of its buffer have been observed. -/
def afterEvents (previousPending chunkLen : Nat) (detector : ProxyStreamDetector) :
    PumpResult → Except ProxyStreamParseError (ProxyStreamObservation × ProxyStreamDetector)
  | ⟨seen, some stop⟩ =>
    .ok (⟨seen, some (min (stop - previousPending) chunkLen)⟩,
      { detector with pending := [], scanFrom := 0 })
  | ⟨seen, none⟩ =>
    let rest := (sseDelimiter.frames detector.pending).2
    if detector.maxEventBytes < rest.length then .error .eventTooLarge
    else .ok (⟨seen, none⟩, { detector with pending := rest, scanFrom := rest.length - 3 })

theorem pushLoop_eq {previousPending chunkLen : Nat} :
    ∀ (pending : Bytes) (detector : ProxyStreamDetector) (consumed : Nat) (seen : Bool),
      detector.pending = pending →
      sseDelimiter.boundary? pending detector.scanFrom = sseDelimiter.boundary? pending 0 →
      pushLoop fromStr previousPending chunkLen detector consumed seen =
        (observe fromStr detector.protocol detector.maxEventBytes seen
          (place consumed (sseDelimiter.frames pending).1)).bind
            (afterEvents previousPending chunkLen detector) := by
  intro pending
  induction pending using Delimiter.frames_induct (d := sseDelimiter) with
  | rest pending h =>
    intro detector consumed seen hpending hscan
    subst hpending
    rw [h, ← nextEventBoundary_eq] at hscan
    rw [pushLoop, Delimiter.frames_of_none h]
    split
    · rename_i hnext
      rw [hscan] at hnext
      cases hnext
    · simp only [place, observe, Except.bind, afterEvents, Delimiter.frames_of_none h]
  | frame pending i n h ih =>
    intro detector consumed seen hpending hscan
    subst hpending
    rw [h, ← nextEventBoundary_eq] at hscan
    rw [pushLoop]
    split
    · rename_i hnext
      rw [hscan] at hnext
      cases hnext
      have hframes := Delimiter.frames_of_some h
      have hbounds := Delimiter.boundary?_bounds h
      have htake : (detector.pending.take i).length = i := by
        rw [List.length_take]
        omega
      rw [hframes]
      simp only [place, observe, htake]
      split
      · rfl
      · split
        · rfl
        · rw [ih { detector with pending := detector.pending.drop (i + n), scanFrom := 0 } _ _ rfl rfl]
          -- both detectors have the same rest after their last complete event
          congr 1
          funext r
          obtain ⟨m, stop⟩ := r
          cases stop with
          | none => simp only [afterEvents, hframes]
          | some stop => rfl
    · rename_i hnext
      rw [hscan] at hnext
      cases hnext

theorem push_eq {detector : ProxyStreamDetector} (hscanned : detector.Scanned) (chunk : Bytes) :
    detector.push fromStr chunk =
      (observe fromStr detector.protocol detector.maxEventBytes false
        (place 0 (sseDelimiter.frames (detector.pending ++ chunk)).1)).bind
          (afterEvents detector.pending.length chunk.length
            { detector with pending := detector.pending ++ chunk }) := by
  apply pushLoop_eq _ _ _ _ rfl
  apply Delimiter.boundary?_resume hscanned.1
  have := hscanned.2
  change detector.scanFrom ≤ detector.pending.length + 1 - 4
  omega

def completed (detector : ProxyStreamDetector) (chunk : Bytes) : List (Frame UInt8) :=
  (sseDelimiter.frames (detector.pending ++ chunk)).1

variable {detector next : ProxyStreamDetector} {chunk : Bytes} {seen : Bool}

theorem push_terminal {chunkEnd : Nat} (hscanned : detector.Scanned)
    (h : detector.push fromStr chunk = .ok (⟨seen, some chunkEnd⟩, next)) :
    observe fromStr detector.protocol detector.maxEventBytes false
      (place 0 (detector.completed chunk)) = .ok ⟨seen, some (detector.pending.length + chunkEnd)⟩ := by
  rw [push_eq hscanned] at h
  cases ho : observe fromStr detector.protocol detector.maxEventBytes false
      (place 0 (sseDelimiter.frames (detector.pending ++ chunk)).1) with
  | error e =>
    rw [ho] at h
    cases h
  | ok r =>
    rw [ho] at h
    obtain ⟨m, stop⟩ := r
    cases stop with
    | none =>
      simp only [Except.bind, afterEvents] at h
      split at h <;> cases h
    | some stop =>
      cases h
      -- the event ends inside the chunk, so neither cut-off of its offset applies
      obtain ⟨event, hmem, rfl⟩ := exists_of_observe_some ho
      have hbounds := place_frames_bounds hscanned.1 hmem
      have hend : detector.pending.length +
          min (event.stop - detector.pending.length) chunk.length = event.stop := by
        omega
      rw [completed, ho, hend]

theorem push_pending (hscanned : detector.Scanned)
    (h : detector.push fromStr chunk = .ok (⟨seen, none⟩, next)) :
    observe fromStr detector.protocol detector.maxEventBytes false
        (place 0 (detector.completed chunk)) = .ok ⟨seen, none⟩ ∧
      next = { detector with
        pending := (sseDelimiter.frames (detector.pending ++ chunk)).2
        scanFrom := (sseDelimiter.frames (detector.pending ++ chunk)).2.length - 3 } := by
  rw [push_eq hscanned] at h
  cases ho : observe fromStr detector.protocol detector.maxEventBytes false
      (place 0 (sseDelimiter.frames (detector.pending ++ chunk)).1) with
  | error e =>
    rw [ho] at h
    cases h
  | ok r =>
    rw [ho] at h
    obtain ⟨m, stop⟩ := r
    cases stop with
    | some stop => cases h
    | none =>
      simp only [Except.bind, afterEvents] at h
      split at h
      · cases h
      · cases h
        exact ⟨ho, rfl⟩

theorem Scanned.push (hscanned : detector.Scanned)
    (h : detector.push fromStr chunk = .ok (⟨seen, none⟩, next)) : next.Scanned := by
  rw [(push_pending hscanned h).2]
  exact ⟨Delimiter.boundary?_frames_rest, Nat.le_refl _⟩

end ProxyStreamDetector

open ProxyStreamDetector

theorem pump_observes {fromStr : String → Option Value} {chunks : List Bytes}
    {detector : ProxyStreamDetector} {start : Nat} {seen : Bool} {r : PumpResult}
    (hscanned : detector.Scanned)
    (h : pump fromStr detector (start + detector.pending.length) seen chunks = .ok r) :
    observe fromStr detector.protocol detector.maxEventBytes seen
      (place start (sseDelimiter.frames (detector.pending ++ chunks.flatten)).1) = .ok r := by
  induction chunks generalizing detector start seen with
  | nil =>
    cases h
    rw [List.flatten_nil, List.append_nil, Delimiter.frames_of_none hscanned.1]
    rfl
  | cons chunk chunks ih =>
    have hshift : observe fromStr detector.protocol detector.maxEventBytes seen
        (place start (detector.completed chunk)) =
        (observe fromStr detector.protocol detector.maxEventBytes false
          (place 0 (detector.completed chunk))).map fun r =>
            ⟨seen || r.meaningfulProgressSeen, r.terminalEnd.map (start + ·)⟩ := by
      rw [← observe_shift, Bool.or_false, Nat.add_zero]
    rw [List.flatten_cons, ← List.append_assoc, Delimiter.frames_append, place_append]
    rw [pump] at h
    cases hpush : detector.push fromStr chunk with
    | error e =>
      rw [hpush] at h
      cases h
    | ok pushed =>
      obtain ⟨⟨m, chunkEnd⟩, next⟩ := pushed
      rw [hpush] at h
      cases chunkEnd with
      | some chunkEnd =>
        cases h
        rw [push_terminal hscanned hpush] at hshift
        rw [Nat.add_assoc]
        exact observe_append_some hshift
      | none =>
        have hnext := hscanned.push hpush
        obtain ⟨hobserved, rfl⟩ := push_pending hscanned hpush
        rw [hobserved] at hshift
        have hlen : ((detector.completed chunk).map Frame.width).sum +
            (sseDelimiter.frames (detector.pending ++ chunk)).2.length =
              (detector.pending ++ chunk).length := Delimiter.frames_length
        rw [List.length_append] at hlen
        have hsent : start + detector.pending.length + chunk.length =
            start + ((detector.completed chunk).map Frame.width).sum +
              (sseDelimiter.frames (detector.pending ++ chunk)).2.length := by
          omega
        rw [hsent] at h
        exact (observe_append_none hshift).trans (ih hnext h)

theorem withLimit_scanned (protocol : ProxyStreamProtocol) (maxEventBytes : Nat) :
    (withLimit protocol maxEventBytes).Scanned :=
  ⟨rfl, Nat.le_refl _⟩

theorem pump_withLimit {fromStr : String → Option Value} {protocol : ProxyStreamProtocol}
    {maxEventBytes : Nat} {chunks : List Bytes} {r : PumpResult}
    (h : pump fromStr (withLimit protocol maxEventBytes) 0 false chunks = .ok r) :
    observe fromStr protocol maxEventBytes false (events chunks.flatten) = .ok r :=
  pump_observes (withLimit_scanned protocol maxEventBytes) (by rw [Nat.zero_add]; exact h)

/-- Where a stream is cut into chunks changes nothing but whether its unfinished part is found too
large: two cuttings without an oversized event find the same first terminal event, at the end of its
delimiter, after the same progress, and an oversized event before it is found in every cutting. -/
theorem pump_independent_of_chunks (fromStr : String → Option Value)
    (protocol : ProxyStreamProtocol) (maxEventBytes : Nat) (chunks : List Bytes) :
    (∀ chunks' r r', chunks'.flatten = chunks.flatten →
      pump fromStr (withLimit protocol maxEventBytes) 0 false chunks = .ok r →
      pump fromStr (withLimit protocol maxEventBytes) 0 false chunks' = .ok r' →
      r.terminalEnd = firstTerminalEnd fromStr protocol chunks.flatten ∧
        r'.terminalEnd = firstTerminalEnd fromStr protocol chunks.flatten ∧
        r.meaningfulProgressSeen = r'.meaningfulProgressSeen) ∧
    ∀ before event later, events chunks.flatten = before ++ event :: later →
      (∀ e ∈ before, (parseEvent fromStr protocol e.body).terminal = false) →
      maxEventBytes < event.body.length →
      pump fromStr (withLimit protocol maxEventBytes) 0 false chunks = .error .eventTooLarge := by
  constructor
  · intro chunks' r r' hcut h h'
    have ho := pump_withLimit h
    have ho' := pump_withLimit h'
    rw [hcut] at ho'
    refine ⟨observe_terminalEnd ho, observe_terminalEnd ho', ?_⟩
    rw [ho] at ho'
    cases ho'
    rfl
  · intro before event later hevents hbefore hlarge
    cases h : pump fromStr (withLimit protocol maxEventBytes) 0 false chunks with
    | error e =>
      cases e
      rfl
    | ok r =>
      have ho := pump_withLimit h
      rw [hevents, observe_tooLarge hbefore hlarge] at ho
      cases ho

/-- The event with the data `[DONE]`, whole and cut inside its text and its delimiter; with a limit
below its twelve bytes it is too large. -/
theorem pump_independent_of_chunks_done :
    (let chunks : List Bytes :=
      [[100, 97, 116, 97, 58, 32, 91, 68, 79, 78, 69, 93, 13, 10, 13, 10]]
    let chunks' : List Bytes :=
      [[100, 97, 116, 97, 58, 32], [91, 68, 79, 78, 69, 93, 13, 10, 13], [10]]
    pump (fun _ => none) (withLimit .openAiChat 15) 0 false chunks = .ok ⟨true, some 16⟩ ∧
      pump (fun _ => none) (withLimit .openAiChat 15) 0 false chunks' = .ok ⟨true, some 16⟩ ∧
      firstTerminalEnd (fun _ => none) .openAiChat chunks.flatten = some 16) ∧
    pump (fun _ => none) (withLimit .openAiChat 11) 0 false
      [[100, 97, 116, 97, 58, 32], [91, 68, 79, 78, 69, 93, 13, 10, 13], [10]] =
        .error .eventTooLarge := by
  constructor
  · intro chunks chunks'
    have h : pump (fun _ => none) (withLimit .openAiChat 15) 0 false chunks =
        .ok ⟨true, some 16⟩ := by
      decide +kernel
    have h' : pump (fun _ => none) (withLimit .openAiChat 15) 0 false chunks' =
        .ok ⟨true, some 16⟩ := by
      decide +kernel
    have hsame := (pump_independent_of_chunks (fun _ => none) .openAiChat 15 chunks).1 chunks' _ _
      rfl h h'
    exact ⟨h, h', hsame.1.symm⟩
  · exact (pump_independent_of_chunks (fun _ => none) .openAiChat 11 _).2 []
      ⟨[100, 97, 116, 97, 58, 32, 91, 68, 79, 78, 69, 93], 16⟩ [] (by decide +kernel)
      (fun _ h => nomatch h) (by decide)

end CcSwitchRouter.ProxyStream

import PathPlanner.Wire.Socket

set_option autoImplicit false

namespace PathPlanner

open Arrivals Checks Codec

namespace Wire

-- The bytes a frame with this header takes on the wire.
def frameLength (header : FrameHeader) : Nat := kFrameHeaderBytes + header.payloadLength.toNat + kFrameTrailerBytes

def kMaxFrameBytes : Nat := kFrameHeaderBytes + kMaxFramePayloadBytes + kFrameTrailerBytes

theorem header_length_bound (bytes : Bytes) (header : FrameHeader) (decoded : decodeFrameHeader bytes = .ok header) :
    header.payloadLength.toNat ≤ kMaxFramePayloadBytes := by
  unfold decodeFrameHeader at decoded
  obtain ⟨_, judged⟩ := (then_ok _ _ _).mp decoded
  obtain ⟨raw, _, judged⟩ := (bind_ok _ _ _).mp judged
  obtain ⟨type, facts, rfl⟩ := (judge_header_ok _ _ _).mp judged
  exact facts.length

-- The header is decided by the first bytes alone.
theorem decode_header_front (first rest : Bytes) (whole : first.length = kFrameHeaderBytes) :
    decodeFrameHeader (first ++ rest) = decodeFrameHeader first := by
  have covered : kHeaderCrcCoverageBytes ≤ first.length := by
    rw [whole]
    decide
  have enough : ¬ (first ++ rest).length < kFrameHeaderBytes := by
    rw [List.length_append, whole]
    omega
  have full : ¬ first.length < kFrameHeaderBytes := by
    rw [whole]
    exact lt_irrefl _
  unfold decodeFrameHeader
  rw [List.take_append_of_le_length whole.ge, List.take_append_of_le_length covered]
  simp only [deny, enough, full, if_false]

theorem decode_frame_header (bytes : Bytes) (frame : Frame) (decoded : decodeFrame bytes = .ok frame) :
    ∃ header, decodeFrameHeader bytes = .ok header ∧ bytes.length = frameLength header := by
  unfold decodeFrame at decoded
  obtain ⟨header, read, decoded⟩ := (bind_ok _ _ _).mp decoded
  simp only [then_ok, deny_ok, not_lt, gt_iff_lt] at decoded
  exact ⟨header, read, le_antisymm decoded.2.1 decoded.1⟩

theorem read_source_ok (wanted : Nat) (stream after : Source UInt8 Nat) (data : Bytes) :
    readSource wanted stream = (.ok data, after) ↔ stream = ⟨data ++ after.content, after.ending⟩ ∧ data.length = wanted := by
  obtain ⟨content, ending⟩ := stream
  obtain ⟨rest, stop⟩ := after
  simp only [readSource, Source.skip, Prod.mk.injEq, Source.mk.injEq]
  constructor
  · rintro ⟨read, dropped, same⟩
    by_cases enough : wanted ≤ content.length
    · rw [if_pos enough, Except.ok.injEq] at read
      refine ⟨⟨?_, same⟩, ?_⟩
      · rw [← read, ← dropped, List.take_append_drop]
      · rw [← read, List.length_take, Nat.min_eq_left enough]
    · rw [if_neg enough] at read
      cases read
  · rintro ⟨⟨split, same⟩, length⟩
    rw [split, ← length, List.take_left, List.drop_left, if_pos (by rw [List.length_append]; omega)]
    exact ⟨rfl, rfl, same⟩

-- A frame read is one whole frame off the front of the stream.
theorem read_frame_source_ok (stream after : Source UInt8 Nat) (frame : Frame) : readFrameSource stream = (.ok frame, after) ↔
    ∃ segment, decodeFrame segment = .ok frame ∧ stream = ⟨segment ++ after.content, after.ending⟩ := by
  constructor
  · intro read
    unfold readFrameSource at read
    generalize start : readSource kFrameHeaderBytes stream = front at read
    obtain ⟨first, rest⟩ := front
    cases first with
    | error status => cases read
    | ok first =>
        dsimp only at read
        cases decoded : decodeFrameHeader first with
        | error status =>
            rw [decoded] at read
            cases read
        | ok header =>
            rw [decoded] at read
            dsimp only at read
            generalize finish : readSource (header.payloadLength.toNat + kFrameTrailerBytes) rest = back at read
            obtain ⟨tail, last⟩ := back
            cases tail with
            | error status => cases read
            | ok tail =>
                obtain ⟨whole, rfl⟩ := Prod.mk.injEq _ _ _ _ ▸ read
                obtain ⟨front, _⟩ := (read_source_ok _ _ _ _).mp start
                obtain ⟨back, _⟩ := (read_source_ok _ _ _ _).mp finish
                refine ⟨first ++ tail, whole, ?_⟩
                rw [front, back, List.append_assoc]
  · rintro ⟨segment, whole, rfl⟩
    obtain ⟨header, judged, length⟩ := decode_frame_header segment frame whole
    have long : kFrameHeaderBytes ≤ segment.length := by
      rw [length, frameLength]
      omega
    have front : (segment.take kFrameHeaderBytes).length = kFrameHeaderBytes := by
      rw [List.length_take, Nat.min_eq_left long]
    have back : (segment.drop kFrameHeaderBytes).length = header.payloadLength.toNat + kFrameTrailerBytes := by
      rw [List.length_drop, length, frameLength]
      omega
    have start : readSource kFrameHeaderBytes ⟨segment ++ after.content, after.ending⟩ =
        (.ok (segment.take kFrameHeaderBytes), ⟨segment.drop kFrameHeaderBytes ++ after.content, after.ending⟩) := by
      rw [read_source_ok]
      refine ⟨?_, front⟩
      rw [← List.append_assoc, List.take_append_drop]
    have finish : readSource (header.payloadLength.toNat + kFrameTrailerBytes)
        ⟨segment.drop kFrameHeaderBytes ++ after.content, after.ending⟩ = (.ok (segment.drop kFrameHeaderBytes), after) := by
      rw [read_source_ok]
      exact ⟨rfl, back⟩
    have first : decodeFrameHeader (segment.take kFrameHeaderBytes) = .ok header := by
      rw [← decode_header_front _ (segment.drop kFrameHeaderBytes) front, List.take_append_drop]
      exact judged
    unfold readFrameSource
    rw [start]
    dsimp only
    rw [first]
    dsimp only
    rw [finish]
    dsimp only
    rw [List.take_append_drop, whole]

theorem decode_frame_length (segment : Bytes) (frame : Frame) (decoded : decodeFrame segment = .ok frame) :
    0 < segment.length ∧ segment.length ≤ kMaxFrameBytes := by
  obtain ⟨header, judged, length⟩ := decode_frame_header segment frame decoded
  have bound := header_length_bound segment header judged
  rw [length, frameLength, kMaxFrameBytes]
  exact ⟨by simp only [kFrameHeaderBytes]; omega, by omega⟩

theorem read_frame_ok (incoming rest : Incoming) (frame : Frame) (read : readFrame incoming = (.ok frame, rest)) :
    ∃ segment, decodeFrame segment = .ok frame ∧ source incoming = ⟨segment ++ content rest, ending rest⟩ := by
  have same := read_frame_source incoming
  rw [read] at same
  exact (read_frame_source_ok _ _ _).mp same.symm

-- The frames a reader takes off the stream one after the other, up to the first it cannot read.
def readAll (incoming : Incoming) : List Frame × Status :=
  match _read : readFrame incoming with
  | (.error status, _) => ([], status)
  | (.ok frame, rest) =>
      let (frames, status) := readAll rest
      (frame :: frames, status)
termination_by (content incoming).length
decreasing_by
  obtain ⟨segment, decoded, same⟩ := read_frame_ok incoming rest frame _read
  have whole : content incoming = segment ++ content rest := congrArg Source.content same
  have some := (decode_frame_length segment frame decoded).1
  rw [whole, List.length_append]
  omega

-- No frame leads these bytes.
def Frameless (bytes : Bytes) : Prop := ∀ segment more frame, bytes = segment ++ more → decodeFrame segment ≠ .ok frame

-- The frames are those the stream starts with, as many as there are, and the status is that of what follows them.
structure Framed (stream : Source UInt8 Nat) (frames : List Frame) (status : Status) : Prop where
  exactly : ∃ segments rest, stream.content = segments.flatten ++ rest ∧
    List.Forall₂ (fun segment frame => decodeFrame segment = .ok frame) segments frames ∧ Frameless rest ∧
    (readFrameSource ⟨rest, stream.ending⟩).1 = .error status

theorem framed_stop (stream : Source UInt8 Nat) (status : Status) (stopped : (readFrameSource stream).1 = .error status) :
    Framed stream [] status := by
  refine ⟨[], stream.content, rfl, .nil, ?_, stopped⟩
  intro segment more frame split decoded
  have read := (read_frame_source_ok stream ⟨more, stream.ending⟩ frame).mpr ⟨segment, decoded, by rw [← split]⟩
  rw [read] at stopped
  cases stopped

theorem framed_cons (segment rest : Bytes) (ending : Option Nat) (frame : Frame) (frames : List Frame) (status : Status)
    (decoded : decodeFrame segment = .ok frame) (later : Framed ⟨rest, ending⟩ frames status) :
    Framed ⟨segment ++ rest, ending⟩ (frame :: frames) status := by
  obtain ⟨segments, last, split, pairs, none, stopped⟩ := later.exactly
  refine ⟨segment :: segments, last, ?_, .cons decoded pairs, none, stopped⟩
  rw [List.flatten_cons, List.append_assoc, ← split]

theorem read_all_stopped (incoming rest : Incoming) (status : Status) (read : readFrame incoming = (.error status, rest)) :
    readAll incoming = ([], status) := by
  rw [readAll]
  split
  · rename_i stop _ again
    rw [read] at again
    cases again
    rfl
  · rename_i again
    rw [read] at again
    cases again

theorem read_all_more (incoming rest : Incoming) (frame : Frame) (read : readFrame incoming = (.ok frame, rest)) :
    readAll incoming = (frame :: (readAll rest).1, (readAll rest).2) := by
  rw [readAll]
  split
  · rename_i again
    rw [read] at again
    cases again
  · rename_i again
    rw [read] at again
    cases again
    rfl

theorem read_all_framed (incoming : Incoming) : Framed (source incoming) (readAll incoming).1 (readAll incoming).2 := by
  induction incoming using readAll.induct with
  | case1 incoming status rest read =>
      have same := read_frame_source incoming
      rw [read] at same
      rw [read_all_stopped incoming rest status read]
      exact framed_stop _ _ (congrArg Prod.fst same.symm)
  | case2 incoming frame rest read frames status last ih =>
      obtain ⟨segment, decoded, same⟩ := read_frame_ok incoming rest frame read
      rw [read_all_more incoming rest frame read, same]
      exact framed_cons segment (content rest) (ending rest) frame _ _ decoded ih

-- A frame that leads the bytes leads them alone.
theorem frame_lead_unique (left right leftRest rightRest : Bytes) (first second : Frame) (same : left ++ leftRest = right ++ rightRest)
    (decodedLeft : decodeFrame left = .ok first) (decodedRight : decodeFrame right = .ok second) :
    left = right ∧ first = second ∧ leftRest = rightRest := by
  have one := (read_frame_source_ok ⟨left ++ leftRest, none⟩ ⟨leftRest, none⟩ first).mpr ⟨left, decodedLeft, rfl⟩
  have two := (read_frame_source_ok ⟨right ++ rightRest, none⟩ ⟨rightRest, none⟩ second).mpr ⟨right, decodedRight, rfl⟩
  rw [same, two, Prod.mk.injEq, Except.ok.injEq, Source.mk.injEq] at one
  obtain ⟨frames, rest, _⟩ := one
  rw [← rest] at same
  exact ⟨List.append_cancel_right same, frames.symm, rest.symm⟩

theorem framed_unique (stream : Source UInt8 Nat) (left right : List Frame) (first second : Status) (one : Framed stream left first)
    (two : Framed stream right second) : left = right ∧ first = second := by
  obtain ⟨segments, rest, split, pairs, none, stopped⟩ := one.exactly
  obtain ⟨others, last, again, otherPairs, noneLast, stoppedLast⟩ := two.exactly
  rw [split] at again
  clear split one two
  induction pairs generalizing others right with
  | nil =>
      cases otherPairs with
      | nil =>
          obtain rfl : rest = last := again
          rw [stopped] at stoppedLast
          exact ⟨rfl, Except.error.inj stoppedLast⟩
      | cons decoded later =>
          rename_i other frame others frames
          exact absurd decoded (none other (others.flatten ++ last) frame (by simpa using again))
  | cons decoded later ih =>
      rename_i segment frame segments frames
      cases otherPairs with
      | nil =>
          exact absurd decoded (noneLast segment (segments.flatten ++ rest) frame (by simpa using again.symm))
      | cons otherDecoded otherLater =>
          rename_i other second others frames
          rw [List.flatten_cons, List.flatten_cons, List.append_assoc, List.append_assoc] at again
          obtain ⟨_, rfl, tails⟩ := frame_lead_unique _ _ _ _ _ _ again decoded otherDecoded
          obtain ⟨rfl, status⟩ := ih _ _ tails otherLater
          exact ⟨rfl, status⟩

-- A hostile length never makes the reader take more than the largest frame.
theorem read_frame_bounded (stream : Source UInt8 Nat) : ∃ taken ≤ kMaxFrameBytes, (readFrameSource stream).2 = stream.skip taken := by
  rw [readFrameSource, readSource]
  by_cases long : kFrameHeaderBytes ≤ stream.content.length
  · rw [if_pos long]
    dsimp only
    cases decoded : decodeFrameHeader (stream.content.take kFrameHeaderBytes) with
    | error status => exact ⟨kFrameHeaderBytes, by decide, rfl⟩
    | ok header =>
        have bound := header_length_bound _ header decoded
        refine ⟨kFrameHeaderBytes + (header.payloadLength.toNat + kFrameTrailerBytes), ?_, ?_⟩
        · rw [kMaxFrameBytes]
          omega
        · rw [← skip_skip]
          dsimp only
          rw [readSource]
          split <;> rename_i outcome <;> exact (congrArg Prod.snd outcome).symm
  · rw [if_neg long]
    exact ⟨kFrameHeaderBytes, by decide, rfl⟩

def endStatus (ending : Option Nat) : Status := ending.elim closedMidFrame receiveFailed

theorem read_source_short (wanted : Nat) (stream : Source UInt8 Nat) (short : stream.content.length < wanted) :
    readSource wanted stream = (.error (endStatus stream.ending), stream.skip wanted) := by
  rw [readSource, if_neg (not_le.mpr short)]
  rfl

theorem read_frame_short (content : Bytes) (ending : Option Nat) (short : content.length < kFrameHeaderBytes) :
    (readFrameSource ⟨content, ending⟩).1 = .error (endStatus ending) := by
  rw [readFrameSource, read_source_short _ _ short]

-- The front of a frame that breaks off is never taken for a frame.
theorem read_frame_broken (sent missing : Bytes) (ending : Option Nat) (frame : Frame) (some : missing ≠ [])
    (decoded : decodeFrame (sent ++ missing) = .ok frame) : (readFrameSource ⟨sent, ending⟩).1 = .error (endStatus ending) := by
  by_cases short : sent.length < kFrameHeaderBytes
  · exact read_frame_short sent ending short
  · obtain ⟨header, judged, length⟩ := decode_frame_header _ frame decoded
    have front : (sent.take kFrameHeaderBytes).length = kFrameHeaderBytes := by
      rw [List.length_take, Nat.min_eq_left (not_lt.mp short)]
    have first : decodeFrameHeader (sent.take kFrameHeaderBytes) = .ok header := by
      rw [← decode_header_front _ (sent.drop kFrameHeaderBytes ++ missing) front, ← List.append_assoc, List.take_append_drop]
      exact judged
    have lacking := List.length_pos_of_ne_nil some
    have start : readSource kFrameHeaderBytes ⟨sent, ending⟩ =
        (.ok (sent.take kFrameHeaderBytes), ⟨sent.drop kFrameHeaderBytes, ending⟩) := by
      rw [read_source_ok]
      exact ⟨by rw [List.take_append_drop], front⟩
    rw [List.length_append, frameLength] at length
    rw [readFrameSource, start]
    dsimp only
    rw [first]
    dsimp only
    rw [read_source_short]
    rw [List.length_drop]
    omega

-- What is handed over is the front of what was offered, and all of it exactly when the send succeeds.
theorem send_all_front (departures : List Departure) (bytes : Bytes) : ∃ missing,
    bytes = (sendAll departures bytes).2.1 ++ missing ∧ ((sendAll departures bytes).1 = .ok () ↔ missing = []) := by
  induction departures generalizing bytes with
  | nil => cases bytes <;> exact ⟨[], by simp [sendAll], by simp [sendAll]⟩
  | cons departure rest ih =>
      cases bytes with
      | nil => exact ⟨[], by simp [sendAll], by simp [sendAll]⟩
      | cons byte more =>
          cases departure with
          | interrupted => exact ih (byte :: more)
          | failed code => exact ⟨byte :: more, rfl, by simp [sendAll]⟩
          | taken less =>
              obtain ⟨missing, split, all⟩ := ih ((byte :: more).drop (min (less + 1) (min (more.length + 1) kTransferChunk)))
              refine ⟨missing, ?_, all⟩
              simp only [sendAll]
              rw [List.append_assoc, ← split, List.take_append_drop]

def Faultless (departures : List Departure) : Prop := ∀ departure ∈ departures, ∀ code, departure ≠ .failed code

theorem send_all_faultless (departures : List Departure) (bytes : Bytes) (faultless : Faultless departures) :
    (sendAll departures bytes).1 = .ok () ∧ Faultless (sendAll departures bytes).2.2 := by
  induction departures generalizing bytes with
  | nil => cases bytes <;> exact ⟨rfl, faultless⟩
  | cons departure rest ih =>
      have later : Faultless rest := fun departure listed => faultless departure (List.mem_cons_of_mem _ listed)
      cases bytes with
      | nil => exact ⟨rfl, faultless⟩
      | cons byte more =>
          cases departure with
          | interrupted => exact ih (byte :: more) later
          | failed code => exact absurd rfl (faultless (.failed code) List.mem_cons_self code)
          | taken less => exact ih _ later

def writeFrame (departures : List Departure) (header : FrameHeader) (payload : Bytes) : Result Unit × Bytes × List Departure :=
  sendAll departures (encodeFrame header payload)

-- Frames written one after the other: how many went out whole, and the bytes that did.
def writeFrames : List Departure → List (FrameHeader × Bytes) → Nat × Bytes
  | _, [] => (0, [])
  | departures, (header, payload) :: more =>
      match writeFrame departures header payload with
      | (.error _, sent, _) => (0, sent)
      | (.ok _, sent, left) =>
          let (whole, wire) := writeFrames left more
          (whole + 1, sent ++ wire)

def received (sent : FrameHeader × Bytes) : Frame := ⟨encodedHeader sent.1 sent.2.length, sent.2⟩

theorem written_framed (departures : List Departure) (sends : List (FrameHeader × Bytes))
    (small : ∀ sent ∈ sends, sent.2.length ≤ kMaxFramePayloadBytes) (ending : Option Nat) :
    Framed ⟨(writeFrames departures sends).2, ending⟩ ((sends.take (writeFrames departures sends).1).map received) (endStatus ending) := by
  induction sends generalizing departures with
  | nil => exact framed_stop _ _ (read_frame_short [] ending (by decide))
  | cons sent more ih =>
      obtain ⟨header, payload⟩ := sent
      have decoded := decode_encode_frame header payload (small _ List.mem_cons_self)
      obtain ⟨missing, split, all⟩ := send_all_front departures (encodeFrame header payload)
      rw [writeFrames, writeFrame]
      generalize sendAll departures (encodeFrame header payload) = outcome at split all ⊢
      obtain ⟨status, wire, left⟩ := outcome
      cases status with
      | error fault =>
          dsimp only at split all ⊢
          have lacking : missing ≠ [] := fun none => by cases all.mpr none
          rw [split] at decoded
          exact framed_stop _ _ (read_frame_broken wire missing ending _ lacking decoded)
      | ok done =>
          dsimp only at split all ⊢
          rw [all.mp rfl, List.append_nil] at split
          rw [← split, List.take_succ_cons, List.map_cons]
          exact framed_cons _ _ ending _ _ _ decoded (ih left fun sent listed => small sent (List.mem_cons_of_mem _ listed))

theorem written_whole (departures : List Departure) (sends : List (FrameHeader × Bytes)) (faultless : Faultless departures) :
    (writeFrames departures sends).1 = sends.length := by
  induction sends generalizing departures with
  | nil => rfl
  | cons sent more ih =>
      obtain ⟨header, payload⟩ := sent
      obtain ⟨done, left⟩ := send_all_faultless departures (encodeFrame header payload) faultless
      rw [writeFrames, writeFrame]
      generalize sendAll departures (encodeFrame header payload) = outcome at done left ⊢
      obtain ⟨status, wire, rest⟩ := outcome
      dsimp only at done left
      rw [done]
      exact congrArg (· + 1) (ih rest left)

-- However the bytes arrive, the reader hands on the frames they start with, reports what ends them and never takes more than one frame.
theorem reader_exact (incoming : Incoming) :
    Framed (source incoming) (readAll incoming).1 (readAll incoming).2 ∧
    (∀ frames status, Framed (source incoming) frames status → (readAll incoming).1 = frames ∧ (readAll incoming).2 = status) ∧
    ∃ taken ≤ kMaxFrameBytes, source (readFrame incoming).2 = (source incoming).skip taken := by
  refine ⟨read_all_framed incoming, fun frames status framed => framed_unique _ _ _ _ _ (read_all_framed incoming) framed, ?_⟩
  obtain ⟨taken, bound, same⟩ := read_frame_bounded (source incoming)
  refine ⟨taken, bound, ?_⟩
  rw [← same, ← read_frame_source]

-- The frames that went out whole are the frames received, in their order, wherever the sender broke off and in whatever pieces.
theorem frames_transmitted (departures : List Departure) (sends : List (FrameHeader × Bytes)) (incoming : Incoming)
    (small : ∀ sent ∈ sends, sent.2.length ≤ kMaxFramePayloadBytes)
    (lossless : content incoming = (writeFrames departures sends).2) :
    readAll incoming = ((sends.take (writeFrames departures sends).1).map received, endStatus (ending incoming)) ∧
      (Faultless departures → (writeFrames departures sends).1 = sends.length) := by
  refine ⟨?_, written_whole departures sends⟩
  have written := written_framed departures sends small (ending incoming)
  rw [← lossless] at written
  obtain ⟨frames, status⟩ := framed_unique _ _ _ _ _ (read_all_framed incoming) written
  exact Prod.ext frames status

def greeting : List (FrameHeader × Bytes) := [({ type := .ping, sequence := 1 }, []), ({ type := .pong, sequence := 1 }, [])]

def brokenUp : List Departure := [.taken 9, .interrupted, .taken 70]

def greetingBytes : Bytes := (writeFrames brokenUp greeting).2

theorem greeting_transmitted :
    readAll [.interrupted, .piece (greetingBytes.take 100), .piece [], .piece (greetingBytes.drop 100), .failed 104] =
      (greeting.map received, receiveFailed 104) := by
  have faultless : Faultless brokenUp := by
    intro departure listed code failed
    subst failed
    simp [brokenUp] at listed
  have small : ∀ sent ∈ greeting, sent.2.length ≤ kMaxFramePayloadBytes := by decide
  have transmitted := frames_transmitted brokenUp greeting
    [.interrupted, .piece (greetingBytes.take 100), .piece [], .piece (greetingBytes.drop 100), .failed 104] small
    (by simp [content, greetingBytes])
  rw [transmitted.1, transmitted.2 faultless]
  rfl

end Wire

end PathPlanner

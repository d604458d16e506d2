import PathPlanner.Lib.Arrivals
import PathPlanner.Wire.FrameCodec

set_option autoImplicit false

namespace PathPlanner

open Arrivals Checks Codec

namespace Wire

-- What arrives at an open socket; a failed receive names the code of the operating system.
abbrev Incoming := List (Arrival UInt8 Nat)

def kTransferChunk : Nat := 2147483647

def receiveFailed (code : Nat) : Status := ⟨.receiveFailure, text "recv failed with code " ++ decimal code⟩

def closedMidFrame : Status := failure .peerClosed "peer closed the session mid-frame"

-- A receive waits until something arrives; nothing at all stands for the orderly close.
def receive (limit : Nat) : Incoming → Result Bytes × Incoming
  | [] => (.ok [], [])
  | .interrupted :: rest => receive limit rest
  | .failed code :: rest => (.error (receiveFailed code), .failed code :: rest)
  | .piece [] :: rest => receive limit rest
  | .piece (byte :: more) :: rest =>
      if more.length + 1 ≤ limit then (.ok (byte :: more), rest)
      else (.ok ((byte :: more).take limit), .piece ((byte :: more).drop limit) :: rest)

def receiveSome (buffer : Nat) (incoming : Incoming) : Result Bytes × Incoming :=
  if buffer = 0 then (.error (failure .receiveFailure "receive into an empty buffer"), incoming)
  else receive (min buffer kTransferChunk) incoming

-- The bytes wanted still are read by as many receives as it takes.
def readExact (wanted : Nat) (incoming : Incoming) : Result Bytes × Incoming :=
  if wanted = 0 then (.ok [], incoming)
  else
    match receiveSome wanted incoming with
    | (.error status, rest) => (.error status, rest)
    | (.ok [], rest) => (.error closedMidFrame, rest)
    | (.ok (byte :: more), rest) =>
        match readExact (wanted - (more.length + 1)) rest with
        | (.error status, rest) => (.error status, rest)
        | (.ok bytes, rest) => (.ok (byte :: more ++ bytes), rest)
termination_by wanted
decreasing_by omega

def readFrame (incoming : Incoming) : Result Frame × Incoming :=
  match readExact kFrameHeaderBytes incoming with
  | (.error status, rest) => (.error status, rest)
  | (.ok first, rest) =>
      match decodeFrameHeader first with
      | .error status => (.error status, rest)
      | .ok header =>
          match readExact (header.payloadLength.toNat + kFrameTrailerBytes) rest with
          | (.error status, rest) => (.error status, rest)
          | (.ok tail, rest) => (decodeFrame (first ++ tail), rest)

-- What a send does with what it is offered: take some of it, at least a byte, be interrupted, or fail.
inductive Departure where
  | taken (less : Nat)
  | interrupted
  | failed (code : Nat)

def sendFailed (code : Nat) : Status := ⟨.sendFailure, text "send failed with code " ++ decimal code⟩

-- The bytes handed over, whether or not all of them; where the list ends, the socket takes whatever it is offered.
def sendAll : List Departure → Bytes → Result Unit × Bytes × List Departure
  | departures, [] => (.ok (), [], departures)
  | [], bytes => (.ok (), bytes, [])
  | .interrupted :: rest, byte :: more => sendAll rest (byte :: more)
  | .failed code :: rest, _ :: _ => (.error (sendFailed code), [], rest)
  | .taken less :: rest, byte :: more =>
      let written := min (less + 1) (min (more.length + 1) kTransferChunk)
      let (status, sent, left) := sendAll rest ((byte :: more).drop written)
      (status, (byte :: more).take written ++ sent, left)

-- What one receive makes of the stream.
inductive Received (limit : Nat) (stream : Source UInt8 Nat) : Result Bytes → Source UInt8 Nat → Prop where
  | some (byte : UInt8) (more rest : Bytes) (content : stream.content = byte :: more ++ rest) (room : more.length + 1 ≤ limit) :
      Received limit stream (.ok (byte :: more)) ⟨rest, stream.ending⟩
  | closed (content : stream.content = []) (ending : stream.ending = none) : Received limit stream (.ok []) stream
  | failed (code : Nat) (content : stream.content = []) (ending : stream.ending = .some code) :
      Received limit stream (.error (receiveFailed code)) stream

theorem receive_received (limit : Nat) (positive : 0 < limit) (incoming : Incoming) :
    Received limit (source incoming) (receive limit incoming).1 (source (receive limit incoming).2) := by
  induction incoming with
  | nil => exact .closed rfl rfl
  | cons arrival rest ih =>
      cases arrival with
      | interrupted => exact ih
      | failed code => exact .failed code rfl rfl
      | piece items =>
          cases items with
          | nil => exact ih
          | cons byte more =>
              rw [receive]
              by_cases whole : more.length + 1 ≤ limit
              · rw [if_pos whole]
                exact .some byte more (content rest) rfl whole
              · rw [if_neg whole]
                obtain ⟨less, rfl⟩ := Nat.exists_eq_succ_of_ne_zero positive.ne'
                refine .some byte (more.take less) (more.drop less ++ content rest) ?_ ?_
                · change byte :: more ++ content rest = byte :: more.take less ++ (more.drop less ++ content rest)
                  rw [List.cons_append, List.cons_append, ← List.append_assoc, List.take_append_drop]
                · rw [List.length_take]
                  omega

-- Reading from the stream itself, all at once.
def readSource (wanted : Nat) (stream : Source UInt8 Nat) : Result Bytes × Source UInt8 Nat :=
  (if wanted ≤ stream.content.length then .ok (stream.content.take wanted)
    else .error (stream.ending.elim closedMidFrame receiveFailed), stream.skip wanted)

theorem read_source_zero (stream : Source UInt8 Nat) : readSource 0 stream = (.ok [], stream) := by
  rw [readSource, if_pos (Nat.zero_le _), skip_zero, List.take_zero]

theorem read_source_empty (wanted : Nat) (some : wanted ≠ 0) (stream : Source UInt8 Nat) (content : stream.content = []) :
    readSource wanted stream = (.error (stream.ending.elim closedMidFrame receiveFailed), stream) := by
  have short : ¬ wanted ≤ stream.content.length := by
    rw [content, List.length_nil]
    omega
  rw [readSource, if_neg short, Source.skip, content, List.drop_nil, ← content]

-- What was received first is the front of what is read.
theorem read_source_front (wanted : Nat) (front rest : Bytes) (ending : Option Nat) (room : front.length ≤ wanted) :
    readSource wanted ⟨front ++ rest, ending⟩ =
      ((readSource (wanted - front.length) ⟨rest, ending⟩).1.map (front ++ ·), (readSource (wanted - front.length) ⟨rest, ending⟩).2) := by
  simp only [readSource, Source.skip, List.length_append, List.drop_append, List.drop_eq_nil_of_le room, List.nil_append]
  by_cases enough : wanted ≤ front.length + rest.length
  · rw [if_pos enough, if_pos (by omega), List.take_append, List.take_of_length_le room]
    rfl
  · rw [if_neg enough, if_neg (by omega)]
    rfl

theorem read_exact_source (wanted : Nat) (incoming : Incoming) :
    ((readExact wanted incoming).1, source (readExact wanted incoming).2) = readSource wanted (source incoming) := by
  induction wanted using Nat.strong_induction_on generalizing incoming with
  | _ wanted ih =>
      rw [readExact]
      by_cases done : wanted = 0
      · subst done
        rw [if_pos rfl, read_source_zero]
      · rw [if_neg done]
        have positive : 0 < min wanted kTransferChunk := lt_min (Nat.pos_of_ne_zero done) (by decide)
        have received := receive_received (min wanted kTransferChunk) positive incoming
        have some : receiveSome wanted incoming = receive (min wanted kTransferChunk) incoming := by rw [receiveSome, if_neg done]
        rw [← some] at received
        generalize receiveSome wanted incoming = outcome at received ⊢
        obtain ⟨result, rest⟩ := outcome
        dsimp only at received
        generalize same : source rest = after at received
        cases received with
        | some byte more tail content room =>
            have later := ih (wanted - (more.length + 1)) (by omega) rest
            rw [same] at later
            have front : source incoming = ⟨byte :: more ++ tail, (source incoming).ending⟩ := by rw [← content]
            rw [front, read_source_front wanted (byte :: more) tail _ (by rw [List.length_cons]; omega), List.length_cons, ← later]
            dsimp only
            generalize readExact (wanted - (more.length + 1)) rest = read
            obtain ⟨bytes, left⟩ := read
            cases bytes <;> rfl
        | closed content ending =>
            rw [read_source_empty wanted done _ content, ending, ← same]
            rfl
        | failed code content ending =>
            rw [read_source_empty wanted done _ content, ending, ← same]
            rfl

-- The frame reader over the stream itself.
def readFrameSource (stream : Source UInt8 Nat) : Result Frame × Source UInt8 Nat :=
  match readSource kFrameHeaderBytes stream with
  | (.error status, rest) => (.error status, rest)
  | (.ok first, rest) =>
      match decodeFrameHeader first with
      | .error status => (.error status, rest)
      | .ok header =>
          match readSource (header.payloadLength.toNat + kFrameTrailerBytes) rest with
          | (.error status, rest) => (.error status, rest)
          | (.ok tail, rest) => (decodeFrame (first ++ tail), rest)

theorem read_frame_source (incoming : Incoming) :
    ((readFrame incoming).1, source (readFrame incoming).2) = readFrameSource (source incoming) := by
  rw [readFrame, readFrameSource, ← read_exact_source]
  generalize readExact kFrameHeaderBytes incoming = start
  obtain ⟨first, rest⟩ := start
  cases first with
  | error status => rfl
  | ok first =>
      dsimp only
      cases decodeFrameHeader first with
      | error status => rfl
      | ok header =>
          dsimp only
          rw [← read_exact_source]
          generalize readExact (header.payloadLength.toNat + kFrameTrailerBytes) rest = finish
          obtain ⟨tail, rest⟩ := finish
          cases tail <;> rfl

end Wire

end PathPlanner

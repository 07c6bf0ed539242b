import MongoWire.Lib.Drain
import MongoWire.Framing.Spec

/-!
# Streams

The codec of `mongowire/src/codec.rs` drains its buffer after every read, so
the chunks in which a stream arrives must not show.
-/

open MongoWire.Lib MongoWire.Lib.Outcome MongoWire.Io

namespace MongoWire.Framing

/-- `MongoCodec`: the configured limit. -/
structure MongoCodec where
  maxMsgLen : Int32

def MongoCodec.decode (crc : Checksum) (codec : MongoCodec) :
    Decoder UInt8 (Header × MessageBody) ProtocolError :=
  parseMessage crc codec.maxMsgLen

variable {crc : Checksum} {maxLen : Int32}

theorem parseMessage_wait (buf : Bytes) (h : (parseMessage crc maxLen buf).1 = .ok none) :
    (parseMessage crc maxLen buf).2 = buf := by
  unfold parseMessage at h ⊢
  split at h <;> rename_i htake
  · rfl
  · obtain ⟨-, hframe⟩ := (takeFrame_eq_some ..).mp htake
    obtain ⟨_, _, hnone, -⟩ := (parseFrame_eq_ok _ hframe.sixteen_le _).mp h
    cases hnone
  all_goals cases h

theorem parseMessage_split (buf : Bytes) {h : Header} {b : MessageBody}
    (hok : (parseMessage crc maxLen buf).1 = .ok (some (h, b))) :
    ∃ frame, buf = frame ++ (parseMessage crc maxLen buf).2 ∧
      (frame.length : Int) = h.messageLength.toInt ∧ msgHeaderLen ≤ frame.length := by
  obtain ⟨w, hbuf, ha⟩ := (parseMessage_eq_some buf _).mp (Prod.ext hok rfl)
  exact ⟨frameLayout h w b, hbuf, ha.length.symm, by rw [length_frameLayout]; omega⟩

theorem parseMessage_append (buf t : Bytes) (hready : (parseMessage crc maxLen buf).1 ≠ .ok none) :
    parseMessage crc maxLen (buf ++ t) =
      ((parseMessage crc maxLen buf).1, (parseMessage crc maxLen buf).2 ++ t) := by
  have htake : takeFrame crc maxLen buf ≠ .ok none := by
    intro h
    simp [parseMessage, h] at hready
  rw [parseMessage, takeFrame_append buf t htake, parseMessage]
  cases h : takeFrame crc maxLen buf with
  | ok o =>
    cases o with
    | none => exact absurd h htake
    | some p => rfl
  | _ => rfl

theorem incremental_parseMessage (crc : Checksum) (maxLen : Int32) :
    Incremental (parseMessage crc maxLen) where
  waits := parseMessage_wait
  progress := by
    rintro buf ⟨h, b⟩ hok
    obtain ⟨frame, hbuf, -, h16⟩ := parseMessage_split buf hok
    have := congrArg List.length hbuf
    simp only [List.length_append, msgHeaderLen] at this h16
    omega
  stable := parseMessage_append

theorem parseMessage_nil (crc : Checksum) (maxLen : Int32) :
    (parseMessage crc maxLen []).1 = .ok none := by
  rw [parseMessage, takeFrame_of_short (by decide)]

/-- **Chunks do not show.** Feeding a stream in chunks gives the messages, and the error or the
bytes left over, of draining it at once. A call that waits changes nothing, and one that returns a
message consumes its declared length. -/
theorem feed_decode (crc : Checksum) (codec : MongoCodec) (chunks : List Bytes) :
    feed (codec.decode crc) chunks [] = drainAll (codec.decode crc) chunks.flatten ∧
    (drainAll (codec.decode crc) chunks.flatten).stop.Returns ∧
    (∀ buf, (codec.decode crc buf).1 = .ok none → (codec.decode crc buf).2 = buf) ∧
    (∀ buf h b, (codec.decode crc buf).1 = .ok (some (h, b)) →
      ∃ frame, buf = frame ++ (codec.decode crc buf).2 ∧
        (frame.length : Int) = h.messageLength.toInt) := by
  have hstep := incremental_parseMessage crc codec.maxMsgLen
  refine ⟨hstep.feed_eq chunks [] (parseMessage_nil crc _),
    hstep.returns_drainAll (returns_parseMessage crc _) _, parseMessage_wait, fun buf h b hok => ?_⟩
  obtain ⟨frame, hbuf, hlen, -⟩ := parseMessage_split buf hok
  exact ⟨frame, hbuf, hlen⟩

/-- `{}` in an `OP_MSG` without a checksum. -/
def emptyFrame : Bytes :=
  [26, 0, 0, 0, 7, 0, 0, 0, 0, 0, 0, 0, 221, 7, 0, 0, 0, 0, 0, 0, 0, 5, 0, 0, 0, 0]

theorem feed_decode_cut :
    (feed (MongoCodec.decode crc32c ⟨48000000⟩)
        [emptyFrame.take 3, emptyFrame.drop 3 ++ emptyFrame.take 20,
          emptyFrame.drop 20 ++ [15, 0, 0, 0] ++ emptyFrame.drop 4, [1]] []).items.length = 2 ∧
    (feed (MongoCodec.decode crc32c ⟨48000000⟩)
        [emptyFrame.take 3, emptyFrame.drop 3 ++ emptyFrame.take 20,
          emptyFrame.drop 20 ++ [15, 0, 0, 0] ++ emptyFrame.drop 4, [1]] []).stop =
      .err (.invalidHeader "length below header size") := by
  -- Cut inside the header, then inside the second frame; the third is too short.
  rw [(feed_decode crc32c ⟨48000000⟩ _).1]
  decide

end MongoWire.Framing

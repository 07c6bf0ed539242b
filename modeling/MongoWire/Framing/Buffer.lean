import MongoWire.Framing.Stream
import MongoWire.Lib.Residual

/-!
# What a reader holds back

Between two reads, the codec holds the beginning of one frame, and everything before it was handed
out.
-/

open MongoWire.Lib MongoWire.Lib.Outcome MongoWire.Io

namespace MongoWire.Framing

variable {crc : Checksum} {maxLen : Int32}

theorem parseMessage_waits_iff_takeFrame (buf : Bytes) :
    (parseMessage crc maxLen buf).1 = .ok none ↔ takeFrame crc maxLen buf = .ok none := by
  constructor
  · intro h
    unfold parseMessage at h
    split at h <;> rename_i htake
    · exact htake
    · obtain ⟨-, hframe⟩ := (takeFrame_eq_some ..).mp htake
      obtain ⟨_, _, hnone, -⟩ := (parseFrame_eq_ok _ hframe.sixteen_le _).mp h
      cases hnone
    all_goals cases h
  · intro htake
    rw [parseMessage, htake]

theorem parseMessage_waits_iff (buf : Bytes) :
    (parseMessage crc maxLen buf).1 = .ok none ↔ buf.length < msgHeaderLen ∨
      ∃ h : Header, buf.take msgHeaderLen = h.layout ∧ h.InBounds maxLen ∧
        (buf.length : Int) < h.messageLength.toInt := by
  rw [parseMessage_waits_iff_takeFrame]
  by_cases h16 : buf.length < msgHeaderLen
  · simp only [takeFrame_of_short h16, h16, true_or]
  have h16 := Nat.not_lt.mp h16
  have hhead : (buf.take msgHeaderLen).length = msgHeaderLen := List.length_take_of_le h16
  rw [takeFrame_eq h16, bind_eq_ok]
  simp only [Header.parse_eq_ok _ hhead, Nat.not_lt.mpr h16, false_or, and_assoc]
  refine exists_congr fun h => and_congr_right fun _ => and_congr_right fun hbounds => ?_
  have hn := i32AsUsize_of_nonneg h.messageLength (Int.le_trans (by decide) hbounds.1)
  split
  · simp only [true_iff]
    omega
  · simp only [bind_eq_ok, pure_eq, ok.injEq, reduceCtorEq, and_false, exists_false, false_iff]
    omega

theorem parseMessage_alone (buf : Bytes) {x : Header × MessageBody}
    (hok : (parseMessage crc maxLen buf).1 = .ok (some x)) :
    ∃ frame, buf = frame ++ (parseMessage crc maxLen buf).2 ∧
      parseMessage crc maxLen frame = (.ok (some x), []) ∧
      (frame.length : Int) = x.1.messageLength.toInt := by
  obtain ⟨h, b⟩ := x
  obtain ⟨w, hbuf, ha⟩ := (parseMessage_eq_some buf _).mp (Prod.ext hok rfl)
  refine ⟨frameLayout h w b, hbuf, ?_, ha.length.symm⟩
  exact (parseMessage_eq_some _ _).mpr ⟨w, (List.append_nil _).symm, ha⟩

/-- **Every byte is accounted for.** However a stream arrives, its bytes are the frames of the
messages that were handed out, one behind the other, and a tail. The codec either holds this tail,
which is less than a header or the beginning of a frame that declares an accepted length, or it
stopped with the error that the tail gives. -/
theorem feed_accounts_for_all (crc : Checksum) (codec : MongoCodec) (chunks : List Bytes) :
    let fed := feed (codec.decode crc) chunks []
    ∃ frames tail, chunks.flatten = frames.flatten ++ tail ∧
      List.Forall₂ (fun frame msg => codec.decode crc frame = (.ok (some msg), []) ∧
        (frame.length : Int) = msg.1.messageLength.toInt) frames fed.items ∧
      ((fed.stop = .ok tail ∧
          (tail.length < msgHeaderLen ∨ ∃ h : Header, tail.take msgHeaderLen = h.layout ∧
            (tail.length : Int) < h.messageLength.toInt ∧
            h.messageLength.toInt ≤ codec.maxMsgLen.toInt ∧
            h.messageLength.toInt ≤ maxMsgLen)) ∨
        ∃ e, fed.stop = .err e ∧ (codec.decode crc tail).1 = .err e) := by
  intro fed
  have hinc := incremental_parseMessage crc codec.maxMsgLen
  have hfeed : fed = drainAll (parseMessage crc codec.maxMsgLen) chunks.flatten :=
    hinc.feed_eq chunks [] (parseMessage_nil crc _)
  obtain ⟨frames, tail, hbytes, hframes, htail⟩ :=
    hinc.drainAll_split (fun buf _ => parseMessage_alone buf) chunks.flatten
  rw [← hfeed] at hframes htail
  refine ⟨frames, tail, hbytes, hframes, ?_⟩
  have hreturns := returns_parseMessage crc codec.maxMsgLen tail
  rcases hparse : (parseMessage crc codec.maxMsgLen tail).1 with (_ | msg) | e | _ | _
  · rw [hinc.drainAll_of_none hparse] at htail
    refine .inl ⟨(congrArg Drained.stop htail).symm, ?_⟩
    refine ((parseMessage_waits_iff tail).mp hparse).imp_right ?_
    rintro ⟨header, hlayout, ⟨-, hmax, hlimit⟩, hshort⟩
    exact ⟨header, hlayout, hshort, hmax, hlimit⟩
  · rw [hinc.drainAll_of_some hparse] at htail
    cases congrArg Drained.items htail
  · have hstop := hinc.drainAll_of_err hparse []
    rw [List.append_nil, htail] at hstop
    exact .inr ⟨e, congrArg Drained.stop hstop, hparse⟩
  all_goals
    rw [hparse] at hreturns
    exact absurd hreturns id

end MongoWire.Framing

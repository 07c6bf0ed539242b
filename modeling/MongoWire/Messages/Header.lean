import MongoWire.Bson.Decode
import MongoWire.Common.Consts

/-!
# Message header and protocol errors

`mongowire/src/messages/header.rs` and `error.rs`.
-/

open MongoWire.Lib MongoWire.Lib.Outcome MongoWire.Io

namespace MongoWire

inductive ProtocolError where
  | invalidHeader (reason : String)
  | messageTooLarge (size max : Int32)
  | unsupportedOpcode (v : Int32)
  | invalidOpMsg (reason : String)
  | invalidBody (reason : String)
  | checksumMismatch (expected computed : UInt32)
  | unsupportedCompressor (id : UInt8)
  | compression (reason : String)
  | decompressedSizeMismatch (expected actual : Nat)
  | bson (e : BsonError)
  | scalar (e : ScalarError)
  /-- `From<ReadError>` wraps the error it is given. -/
  | io (e : ReadError)
  deriving DecidableEq

inductive Opcode where
  | reply | update | insert | reserved | query | getMore | delete | killCursors | compressed | msg
  deriving DecidableEq

namespace Opcode

def toI32 : Opcode → Int32
  | reply => 1
  | update => 2001
  | insert => 2002
  | reserved => 2003
  | query => 2004
  | getMore => 2005
  | delete => 2006
  | killCursors => 2007
  | compressed => 2012
  | msg => 2013

def all : List Opcode :=
  [reply, update, insert, reserved, query, getMore, delete, killCursors, compressed, msg]

/-- `from_i32`: the opcode whose wire value this is. -/
def fromI32 (v : Int32) : Option Opcode := all.find? fun op => op.toI32 = v

@[simp] theorem fromI32_toI32 (op : Opcode) : fromI32 op.toI32 = some op := by
  cases op <;> decide

theorem fromI32_eq_some (v : Int32) (op : Opcode) : fromI32 v = some op ↔ v = op.toI32 := by
  constructor
  · intro h
    unfold fromI32 at h
    have := List.find?_some h
    simpa using (of_decide_eq_true this).symm
  · rintro rfl
    exact fromI32_toI32 op

end Opcode

structure Header where
  /-- Total message size, header included. -/
  messageLength : Int32
  requestId : Int32
  responseTo : Int32
  opCode : Opcode
  deriving DecidableEq

/-- `v as usize`, for an `i32`. -/
def i32AsUsize (v : Int32) : Nat := (v.toInt % 2 ^ 64).toNat

theorem i32AsUsize_of_nonneg (v : Int32) (h : 0 ≤ v.toInt) : (i32AsUsize v : Int) = v.toInt := by
  have := v.toInt_lt
  unfold i32AsUsize
  omega

theorem i32AsUsize_of_toInt {v : Int32} {n : Nat} (h : v.toInt = n) : i32AsUsize v = n := by
  have := i32AsUsize_of_nonneg v (by omega)
  omega

namespace Header

/-- `r.read_i32_le().unwrap_or(0)`. A failed read leaves the cursor where it was. -/
def readI32OrZero (r : Bytes) : Int32 × Bytes :=
  match readI32Le r with
  | .ok (v, r) => (v, r)
  | _ => (0, r)

def parse (buf : Bytes) (maxLen : Int32) : Outcome ProtocolError Header :=
  if buf.length < msgHeaderLen then .err (.invalidHeader "short header") else
  let (messageLength, r) := readI32OrZero (buf.take msgHeaderLen)
  if messageLength.toInt < msgHeaderLen then
    .err (.invalidHeader "length below header size")
  else if maxLen.toInt < messageLength.toInt then .err (.messageTooLarge messageLength maxLen)
  else if maxMsgLen < messageLength.toInt then
    .err (.messageTooLarge messageLength (.ofNat maxMsgLen))
  else do
  let (requestId, r) := readI32OrZero r
  let (responseTo, r) := readI32OrZero r
  let (rawOpcode, _) := readI32OrZero r
  let opCode ← ofOption (.unsupportedOpcode rawOpcode) (Opcode.fromI32 rawOpcode)
  return { messageLength, requestId, responseTo, opCode }

def encode (h : Header) (out : Bytes) : Bytes :=
  out ++ i32ToLe h.messageLength ++ i32ToLe h.requestId ++ i32ToLe h.responseTo
    ++ i32ToLe h.opCode.toI32

/-! ## The sixteen bytes -/

def layout (h : Header) : Bytes :=
  i32ToLe h.messageLength ++ (i32ToLe h.requestId ++
    (i32ToLe h.responseTo ++ i32ToLe h.opCode.toI32))

@[simp] theorem length_layout (h : Header) : h.layout.length = msgHeaderLen := by
  simp [layout, msgHeaderLen]

theorem encode_eq (h : Header) (out : Bytes) : h.encode out = out ++ h.layout := by
  simp [encode, layout]

/-- The lengths that `parse` lets through. -/
def InBounds (h : Header) (maxLen : Int32) : Prop :=
  msgHeaderLen ≤ h.messageLength.toInt ∧ h.messageLength.toInt ≤ maxLen.toInt ∧
    h.messageLength.toInt ≤ maxMsgLen

theorem readI32OrZero_append (v : Int32) (t : Bytes) : readI32OrZero (i32ToLe v ++ t) = (v, t) := by
  rw [readI32OrZero, (readI32Le_eq_ok _ v t).mpr rfl]

theorem exists_words (b : Bytes) (h : b.length = msgHeaderLen) :
    ∃ v0 v1 v2 v3 : Int32, b = i32ToLe v0 ++ (i32ToLe v1 ++ (i32ToLe v2 ++ i32ToLe v3)) := by
  have hlen : ∀ n, n + 4 ≤ 16 → ((b.drop n).take 4).length = 4 := by
    intro n hn
    simp only [msgHeaderLen] at h
    simp; omega
  refine ⟨i32FromLe ((b.drop 0).take 4), i32FromLe ((b.drop 4).take 4),
    i32FromLe ((b.drop 8).take 4), i32FromLe ((b.drop 12).take 4), ?_⟩
  rw [i32ToLe_i32FromLe _ (hlen 0 (by omega)), i32ToLe_i32FromLe _ (hlen 4 (by omega)),
    i32ToLe_i32FromLe _ (hlen 8 (by omega)), i32ToLe_i32FromLe _ (hlen 12 (by omega))]
  have h12 : (b.drop 12).take 4 = b.drop 12 :=
    List.take_of_length_le (by simp only [msgHeaderLen] at h; simp; omega)
  have hstep : ∀ n, (b.drop n).take 4 ++ b.drop (n + 4) = b.drop n := by
    intro n
    rw [← List.drop_drop, List.take_append_drop]
  rw [h12, hstep 8, hstep 4, hstep 0, List.drop_zero]

theorem parse_eq_ok (b : Bytes) (hb : b.length = msgHeaderLen) (maxLen : Int32) (h : Header) :
    parse b maxLen = .ok h ↔ b = h.layout ∧ h.InBounds maxLen := by
  obtain ⟨v0, v1, v2, v3, rfl⟩ := exists_words b hb
  have htake : (i32ToLe v0 ++ (i32ToLe v1 ++ (i32ToLe v2 ++ i32ToLe v3))).take msgHeaderLen =
      i32ToLe v0 ++ (i32ToLe v1 ++ (i32ToLe v2 ++ (i32ToLe v3 ++ []))) := by
    rw [← hb, List.take_length, List.append_nil]
  rw [parse, if_neg (by omega), htake]
  simp only [readI32OrZero_append, ite_err_eq_ok, bind_eq_ok, ofOption_eq_ok,
    Opcode.fromI32_eq_some, pure_eq, ok.injEq, Int.not_lt, InBounds]
  constructor
  · rintro ⟨h16, hmax, hlim, op, rfl, rfl⟩
    exact ⟨rfl, h16, hmax, hlim⟩
  · rintro ⟨hlay, h16, hmax, hlim⟩
    simp only [layout, i32ToLe_append_inj, i32ToLe_inj] at hlay
    obtain ⟨rfl, rfl, rfl, rfl⟩ := hlay
    exact ⟨h16, hmax, hlim, h.opCode, rfl, rfl⟩

theorem layout_inj {h h' : Header} (heq : h.layout = h'.layout) : h = h' := by
  obtain ⟨len, req, resp, op⟩ := h
  obtain ⟨len', req', resp', op'⟩ := h'
  simp only [layout, i32ToLe_append_inj, i32ToLe_inj] at heq
  obtain ⟨rfl, rfl, rfl, hop⟩ := heq
  have hback := Opcode.fromI32_toI32 op
  rw [hop, Opcode.fromI32_toI32] at hback
  cases hback
  rfl

@[simp] theorem returns_parse (b : Bytes) (maxLen : Int32) : (parse b maxLen).Returns := by
  unfold parse
  simp only [returns_ite_err, returns_bind, returns_ofOption, pure_eq, returns_ok, true_and,
    implies_true]

end Header

end MongoWire

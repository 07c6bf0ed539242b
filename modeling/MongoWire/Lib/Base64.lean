import MongoWire.Lib.LittleEndian

/-!
# Base64

The standard alphabet with padding. A text decodes to `b` only when it is the
encoding of `b`: padding is required, and the bits that pad are zero.
-/

namespace MongoWire.Lib.Base64

def alphabet : List Char :=
  "ABCDEFGHIJKLMNOPQRSTUVWXYZabcdefghijklmnopqrstuvwxyz0123456789+/".toList

def digit (n : Nat) : Char := alphabet.getD n '='

def value (c : Char) : Option Nat := alphabet.idxOf? c

/-- Three bytes are four digits. -/
def encodeChars : Bytes → List Char
  | [] => []
  | [a] => [digit (a.toNat / 4), digit (a.toNat % 4 * 16), '=', '=']
  | [a, b] =>
    [digit (a.toNat / 4), digit (a.toNat % 4 * 16 + b.toNat / 16), digit (b.toNat % 16 * 4), '=']
  | a :: b :: c :: rest =>
    digit (a.toNat / 4) :: digit (a.toNat % 4 * 16 + b.toNat / 16) ::
      digit (b.toNat % 16 * 4 + c.toNat / 64) :: digit (c.toNat % 64) :: encodeChars rest

def encode (b : Bytes) : String := .ofList (encodeChars b)

/-- The bytes of whole groups of digits; padding ends the text. -/
def decodeChars : List Char → Option Bytes
  | [] => some []
  | w :: x :: y :: z :: rest => do
    let w ← value w
    let x ← value x
    let a := UInt8.ofNat (w * 4 + x / 16)
    if y = '=' then return [a]
    let y ← value y
    let b := UInt8.ofNat (x % 16 * 16 + y / 4)
    if z = '=' then return [a, b]
    let z ← value z
    return a :: b :: UInt8.ofNat (y % 4 * 64 + z) :: (← decodeChars rest)
  | _ => none

def decode (s : String) : Option Bytes :=
  (decodeChars s.toList).filter fun b => encode b = s

theorem value_digit : ∀ n < 64, value (digit n) = some n := by decide +kernel

theorem digit_ne_pad : ∀ n < 64, digit n ≠ '=' := by decide +kernel

theorem digit_ne {c : Char} (hc : c ∉ '=' :: alphabet) (n : Nat) : digit n ≠ c := by
  have hmem : digit n ∈ '=' :: alphabet := by
    unfold digit
    rw [List.getD_eq_getElem?_getD]
    rcases h : alphabet[n]? with _ | c
    · exact List.mem_cons_self
    · exact List.mem_cons_of_mem _ (List.mem_of_getElem? h)
  rintro rfl
  exact hc hmem

/-! What a group of digits decodes to. -/

theorem decodeChars_one {w x : Nat} (hw : w < 64) (hx : x < 64) :
    decodeChars [digit w, digit x, '=', '='] = some [.ofNat (w * 4 + x / 16)] := by
  unfold decodeChars
  simp only [value_digit w hw, value_digit x hx, Option.bind_eq_bind, Option.bind_some, if_true]
  rfl

theorem decodeChars_two {w x y : Nat} (hw : w < 64) (hx : x < 64) (hy : y < 64) :
    decodeChars [digit w, digit x, digit y, '='] =
      some [.ofNat (w * 4 + x / 16), .ofNat (x % 16 * 16 + y / 4)] := by
  unfold decodeChars
  simp only [value_digit w hw, value_digit x hx, value_digit y hy, digit_ne_pad y hy,
    Option.bind_eq_bind, Option.bind_some, if_true, if_false]
  rfl

theorem decodeChars_three {w x y z : Nat} (hw : w < 64) (hx : x < 64) (hy : y < 64) (hz : z < 64)
    {rest : List Char} {bytes : Bytes} (hrest : decodeChars rest = some bytes) :
    decodeChars (digit w :: digit x :: digit y :: digit z :: rest) =
      some (.ofNat (w * 4 + x / 16) :: .ofNat (x % 16 * 16 + y / 4) :: .ofNat (y % 4 * 64 + z) ::
        bytes) := by
  unfold decodeChars
  simp only [value_digit w hw, value_digit x hx, value_digit y hy, value_digit z hz,
    digit_ne_pad y hy, digit_ne_pad z hz, hrest, Option.bind_eq_bind, Option.bind_some, if_false]
  rfl

theorem ofNat_eq {n : Nat} {a : UInt8} (h : n = a.toNat) : UInt8.ofNat n = a := by
  rw [h, UInt8.ofNat_toNat]

theorem decodeChars_encodeChars (b : Bytes) : decodeChars (encodeChars b) = some b := by
  induction b using encodeChars.induct with
  | case1 => rfl
  | case2 a =>
    have ha := a.toNat_lt
    unfold encodeChars
    rw [decodeChars_one (by omega) (by omega)]
    congr
    exact ofNat_eq (by omega)
  | case3 a b =>
    have ha := a.toNat_lt
    have hb := b.toNat_lt
    unfold encodeChars
    rw [decodeChars_two (by omega) (by omega) (by omega)]
    congr
    · exact ofNat_eq (by omega)
    · exact ofNat_eq (by omega)
  | case4 a b c rest ih =>
    have ha := a.toNat_lt
    have hb := b.toNat_lt
    have hc := c.toNat_lt
    unfold encodeChars
    rw [decodeChars_three (by omega) (by omega) (by omega) (by omega) ih]
    congr
    · exact ofNat_eq (by omega)
    · exact ofNat_eq (by omega)
    · exact ofNat_eq (by omega)

theorem decode_encode (b : Bytes) : decode (encode b) = some b := by
  unfold decode
  rw [show (encode b).toList = encodeChars b from String.toList_ofList, decodeChars_encodeChars]
  simp

theorem not_mem_encode {c : Char} (hc : c ∉ '=' :: alphabet) (b : Bytes) : c ∉ (encode b).toList := by
  have hdigit := fun n => (digit_ne hc n).symm
  have hpad : c ≠ '=' := List.ne_of_not_mem_cons hc
  rw [show (encode b).toList = encodeChars b from String.toList_ofList]
  induction b using encodeChars.induct with
  | case1 => simp [encodeChars]
  | case2 a => simp [encodeChars, hdigit, hpad]
  | case3 a b => simp [encodeChars, hdigit, hpad]
  | case4 a b c rest ih => simp [encodeChars, hdigit, ih]

theorem comma_not_mem_encode (b : Bytes) : ',' ∉ (encode b).toList := not_mem_encode (by decide) b

example : (encode [110, 44, 44], decode "biws", decode "bix=", decode "biw") =
    ("biws", some [110, 44, 44], none, none) := by decide

end MongoWire.Lib.Base64
